import Mathlib
import BranchPipeline.Processor.Report
import BranchPipeline.Proofs.Pipeline.CycleCount

namespace BranchPipeline

open Attempt

/-!
# What the counts say

A processor counts events in the places where they happen: executions where a
micro-operation retires, branches where they are resolved, flushes in one helper
that serves both redirects and the exit, stalls of fetch in decode.  The traces
tell the same story cycle by cycle.  A cycle that does not fail changes the
record of branches and the counts of events by exactly what its trace says, and
from this everything that relates the two follows for whole runs.
-/

/-- Whether the cycle executed a branch. -/
def CycleTrace.executesJump (trace : CycleTrace) : Bool := trace.executed.any (·.opcode == .jump)

/-- Whether the branch of the cycle was predicted well. -/
def CycleTrace.predicts (trace : CycleTrace) : Bool := trace.branch.any (!·.mispredicted)

/-- A branch was predicted either well or badly. -/
theorem CycleTrace.isSome_branch (trace : CycleTrace) :
    trace.branch.isSome = (trace.predicts || trace.mispredicts) := by
  rw [predicts, mispredicts]
  cases trace.branch with
  | none => rfl
  | some outcome => cases wrong : outcome.mispredicted <;> simp [wrong]

theorem CycleTrace.not_mispredicts {trace : CycleTrace} (right : trace.predicts = true) :
    trace.mispredicts = false := by
  rw [predicts] at right
  rw [mispredicts]
  cases branch : trace.branch with
  | none => rfl
  | some outcome =>
    rw [branch] at right
    simpa using right

/-- Whether the pipeline was emptied in the cycle. -/
def empties (branch : Option BranchOutcome) (flow : Flow) : Bool :=
  branch.any (·.mispredicted) || flow == .exit

/-- Whether fetch stood still in a cycle that did not empty the pipeline. -/
def waits (trace : CycleTrace) (flow : Flow) : Bool :=
  trace.fetchStalled && !empties trace.branch flow

/-! ## The record and the counts -/

namespace BranchRecord

/-- The record after a cycle whose branch came out in this way, if it had one. -/
def afterBranch (record : BranchRecord) (cycle : Nat) (branch : Option BranchOutcome) :
    BranchRecord :=
  branch.elim record fun outcome => record.note cycle outcome.mispredicted

variable (record : BranchRecord) (cycle : Nat) (branch : Option BranchOutcome)

theorem predicted_afterBranch :
    (record.afterBranch cycle branch).predicted.toList =
      record.predicted.toList ++ if branch.any (!·.mispredicted) then [cycle] else [] := by
  cases branch with
  | none => simp [afterBranch]
  | some outcome => cases wrong : outcome.mispredicted <;> simp [afterBranch, note, wrong]

theorem mispredicted_afterBranch :
    (record.afterBranch cycle branch).mispredicted.toList =
      record.mispredicted.toList ++ if branch.any (·.mispredicted) then [cycle] else [] := by
  cases branch with
  | none => simp [afterBranch]
  | some outcome => cases wrong : outcome.mispredicted <;> simp [afterBranch, note, wrong]

theorem branches_afterBranch :
    (record.afterBranch cycle branch).branches = record.branches + branch.isSome.toNat := by
  cases branch with
  | none => rfl
  | some outcome =>
    cases wrong : outcome.mispredicted <;> simp [afterBranch, note, branches, wrong] <;> omega

end BranchRecord

/-- Branches that were predicted badly. -/
def BranchTally.wrong (tally : BranchTally) : Nat := tally.takenWrong + tally.untakenWrong

namespace EventTally

/-- How many micro-operations have been counted as executed. -/
def executions (tally : EventTally) : Nat :=
  (MicroOpcode.all.map fun opcode => tally.executed.get opcode.index).sum

/-- How many branches have been counted as executed. -/
def jumps (tally : EventTally) : Nat := tally.executed.get MicroOpcode.jump.index

/-- The counts after a cycle that executed, resolved and emptied what is given. -/
def afterExecution (tally : EventTally) (op : Option MicroOp) (branch : Option BranchOutcome)
    (flow : Flow) : EventTally where
  executed := op.elim tally.executed fun op => increment tally.executed op.opcode.index
  branches := branch.elim tally.branches fun outcome =>
    tally.branches.record outcome.taken !outcome.mispredicted
  flushes := tally.flushes + (empties branch flow).toNat
  fetchStalls := tally.fetchStalls

/-- The counts after a cycle with this trace. -/
def afterCycle (tally : EventTally) (trace : CycleTrace) (flow : Flow) : EventTally :=
  { tally.afterExecution trace.executed trace.branch flow with
    fetchStalls := tally.fetchStalls + (waits trace flow).toNat }

end EventTally

theorem get_increment {size : Nat} (counts : Vector Nat size) (place other : Fin size) :
    (increment counts place).get other = counts.get other + (decide (place = other)).toNat := by
  change (counts.set place (counts[place] + 1))[other] = counts[other] + _
  rw [Fin.getElem_fin, Vector.getElem_set]
  by_cases same : place = other
  · subst same
    simp
  · rw [if_neg (Fin.val_ne_of_ne same)]
    simp [same]

theorem MicroOpcode.index_inj {opcode other : MicroOpcode} :
    opcode.index = other.index ↔ opcode = other := by
  cases opcode <;> cases other <;> decide

namespace EventTally

variable (tally : EventTally) (trace : CycleTrace) (flow : Flow)

theorem executions_afterCycle :
    (tally.afterCycle trace flow).executions =
      tally.executions + trace.executed.isSome.toNat := by
  cases executed : trace.executed with
  | none => simp [executions, afterCycle, afterExecution, executed]
  | some op =>
    simp only [executions, afterCycle, afterExecution, executed, Option.elim_some, get_increment,
      MicroOpcode.index_inj, List.sum_map_add]
    cases op.opcode <;> rfl

theorem jumps_afterCycle :
    (tally.afterCycle trace flow).jumps = tally.jumps + trace.executesJump.toNat := by
  cases executed : trace.executed with
  | none => simp [jumps, afterCycle, afterExecution, CycleTrace.executesJump, executed]
  | some op =>
    simp only [jumps, afterCycle, afterExecution, CycleTrace.executesJump, executed,
      Option.elim_some, get_increment, MicroOpcode.index_inj]
    rfl

/-- Branches that were predicted well, whichever way they went. -/
theorem correct_afterCycle :
    (tally.afterCycle trace flow).branches.correct =
      tally.branches.correct + trace.predicts.toNat := by
  cases branch : trace.branch with
  | none => simp [afterCycle, afterExecution, CycleTrace.predicts, branch]
  | some outcome =>
    cases taken : outcome.taken <;> cases wrong : outcome.mispredicted <;>
      simp [afterCycle, afterExecution, CycleTrace.predicts, BranchTally.correct,
        BranchTally.record, branch, taken, wrong] <;> omega

/-- Branches that were predicted badly, whichever way they went. -/
theorem wrong_afterCycle :
    (tally.afterCycle trace flow).branches.wrong =
      tally.branches.wrong + trace.mispredicts.toNat := by
  cases branch : trace.branch with
  | none => simp [afterCycle, afterExecution, CycleTrace.mispredicts, branch]
  | some outcome =>
    cases taken : outcome.taken <;> cases wrong : outcome.mispredicted <;>
      simp [afterCycle, afterExecution, CycleTrace.mispredicts, BranchTally.wrong,
        BranchTally.record, branch, taken, wrong] <;> omega

end EventTally

namespace Processor

variable {before after : Processor}

/-! ## One stage -/

/-- What the execute stage does to the record and to the counts. -/
structure Tells (before : Processor) (execution : Execution) (after : Processor) : Prop where
  cycle : after.cycle = before.cycle
  running : before.running = true → (after.running = false ↔ execution.flow = .exit)
  branch : execution.branch.isSome = execution.op.any (·.opcode == .jump)
  silent : execution.flow = .exit → execution.branch = none
  record : after.record = before.record.afterBranch before.cycle execution.branch
  events : after.events =
    before.events.afterExecution execution.op execution.branch execution.flow
  emptied : empties execution.branch execution.flow = true → after.stalled = .all
  kept : empties execution.branch execution.flow = false →
    after.stalled.fetch = before.stalled.fetch

/-- A stage with nothing to execute tells nothing. -/
theorem tells_idle (stalled : StageSet) (awake : stalled.fetch = before.stalled.fetch) :
    Tells before {} { before with stalled } := by
  refine ⟨rfl, ?_, rfl, fun _ => rfl, rfl, rfl, ?_, fun _ => awake⟩
  · intro running
    simp [running]
  · intro impossible
    cases impossible

theorem tells_of_operate {op : MicroOp} {machine : Machine} (plain : op.opcode ≠ .jump) :
    Tells before { op := some op } (retire op { before with machine }) := by
  refine ⟨rfl, ?_, ?_, fun _ => rfl, rfl, rfl, ?_, fun _ => rfl⟩
  · intro running
    simp [retire, running]
  · simp [plain]
  · intro impossible
    cases impossible

theorem tells_of_systemCall {op : MicroOp} {flow : Flow} {middle : Processor}
    (calls : op.opcode = .systemCall) (called : systemCall.Yields before flow middle) :
    Tells before { flow, op := some op } (retire op middle) := by
  have plain : op.opcode ≠ .jump := by
    rw [calls]
    decide
  simp only [systemCall, yields_bind, yields_onMachine] at called
  rcases called with ⟨exits, _, ⟨machine, -, rfl⟩, called⟩
  cases exits with
  | true =>
    simp only [if_true, yields_bind, yields_modify, yields_pure] at called
    rcases called with ⟨_, _, rfl, _, _, rfl, rfl, rfl⟩
    refine ⟨rfl, fun _ => ⟨fun _ => rfl, fun _ => rfl⟩, ?_, fun _ => rfl, rfl, rfl,
      fun _ => rfl, ?_⟩
    · simp [plain]
    · intro impossible
      cases impossible
  | false =>
    simp only [Bool.false_eq_true, if_false, yields_pure] at called
    rcases called with ⟨rfl, rfl⟩
    exact tells_of_operate plain

theorem tells_of_resolveBranch {op : MicroOp} {entry : ReorderEntry} {successor : Successor}
    {branch : BranchOutcome} {middle : Processor} (branches : op.opcode = .jump)
    (resolved : (resolveBranch op entry successor).Yields before branch middle) :
    Tells before { op := some op, branch := some branch } (retire op middle) := by
  have going {ended : Processor} (same : ended.running = before.running)
      (running : before.running = true) : ended.running = false ↔ Flow.proceed = .exit := by
    simp [same, running]
  have silent {outcome : Option BranchOutcome} (exits : Flow.proceed = .exit) :
      outcome = none := by
    cases exits
  have jumps : (some op).any (·.opcode == .jump) = true := by simp [branches]
  simp only [resolveBranch, yields_bind, yields_onMachine, yields_onPredictor] at resolved
  rcases resolved with ⟨resolution, _, ⟨machine, -, rfl⟩, _, _, ⟨taught, -, rfl⟩, resolved⟩
  cases wrong : successor.location != resolution.next with
  | true =>
    simp only [wrong, if_true, yields_bind, yields_modify, yields_onPredictor, yields_pure]
      at resolved
    rcases resolved with ⟨_, _, rfl, _, _, rfl, _, _, ⟨predictor, -, rfl⟩, _, _, rfl, rfl, rfl⟩
    refine ⟨rfl, going rfl, jumps.symm, silent, rfl, rfl, fun _ => rfl, ?_⟩
    intro impossible
    cases impossible
  | false =>
    simp only [wrong, Bool.false_eq_true, if_false, yields_bind, yields_modify, yields_pure]
      at resolved
    rcases resolved with ⟨_, _, rfl, rfl, rfl⟩
    refine ⟨rfl, going rfl, jumps.symm, silent, rfl, rfl, ?_, fun _ => rfl⟩
    intro impossible
    cases impossible

theorem tells_of_execute {execution : Execution} (ran : execute.Yields before execution after) :
    Tells before execution after := by
  simp only [execute, yields_bind, yields_get, and_assoc, exists_and_left, exists_eq_left] at ran
  split at ran
  · simp only [yields_bind, yields_modify, yields_pure] at ran
    rcases ran with ⟨_, _, rfl, rfl, rfl⟩
    exact tells_idle _ rfl
  · split at ran
    · rcases yields_pure.mp ran with ⟨rfl, rfl⟩
      exact tells_idle _ rfl
    · rename_i branches _
      simp only [yields_bind, yields_modify, yields_pure] at ran
      rcases ran with ⟨branch, middle, resolved, _, _, rfl, rfl, rfl⟩
      exact tells_of_resolveBranch branches resolved
    · rename_i calls
      simp only [yields_bind, yields_modify, yields_pure] at ran
      rcases ran with ⟨flow, middle, called, _, _, rfl, rfl, rfl⟩
      exact tells_of_systemCall calls called
    · rename_i op entry _ _ _ _ unresolved resolved
      have plain : op.opcode ≠ .jump := by
        intro branches
        cases known : entry.successor with
        | none => exact unresolved branches known
        | some successor => exact resolved successor branches known
      simp only [yields_bind, yields_onMachine, yields_modify, yields_pure] at ran
      rcases ran with ⟨_, _, ⟨machine, -, rfl⟩, _, _, rfl, rfl, rfl⟩
      exact tells_of_operate plain

/-- Decode counts a stall of fetch exactly when it causes one. -/
theorem course_of_decode {decoded : Option Decoded} (awake : before.stalled.fetch = false)
    (ran : (unlessStalled StageSet.decode none decode).Yields before decoded after) :
    before.SameCourse after ∧
      after.events = { before.events with
        fetchStalls := before.events.fetchStalls + after.stalled.fetch.toNat } := by
  rcases yields_unlessStalled.mp ran with ⟨-, -, rfl⟩ | ⟨-, decodes⟩
  · refine ⟨⟨rfl, rfl, rfl, rfl⟩, ?_⟩
    rw [awake]
    rfl
  · simp only [decode, yields_bind, yields_get, and_assoc, exists_and_left, exists_eq_left,
      yields_ofExcept] at decodes
    rcases decodes with ⟨group, -, decodes⟩
    split at decodes
    · simp only [yields_bind, yields_set, yields_pure] at decodes
      rcases decodes with ⟨_, _, rfl, rfl, rfl⟩
      exact ⟨⟨rfl, rfl, rfl, rfl⟩, rfl⟩
    · simp only [yields_bind, yields_onMachine, yields_onInFlight, yields_modify, yields_pure]
        at decodes
      rcases decodes with ⟨location, _, ⟨machine, -, rfl⟩, _, _, ⟨inFlight, -, rfl⟩, _, _, rfl,
        rfl, rfl⟩
      exact ⟨⟨rfl, rfl, rfl, rfl⟩, rfl⟩

/-- Fetch counts nothing, and fetches unless it is stalled. -/
theorem course_of_fetch {fetched : Option Fetched}
    (ran : (unlessStalled StageSet.fetch none (some <$> fetch)).Yields before fetched after) :
    before.SameCourse after ∧ after.events = before.events ∧
      fetched.isNone = before.stalled.fetch := by
  rcases yields_unlessStalled.mp ran with ⟨asleep, rfl, rfl⟩ | ⟨awake, fetches⟩
  · exact ⟨⟨rfl, rfl, rfl, rfl⟩, rfl, asleep.symm⟩
  · rcases yields_map.mp fetches with ⟨found, finds, rfl⟩
    simp only [fetch, yields_bind, yields_onMachine, yields_onPredictor, yields_get,
      yields_modify, yields_pure] at finds
    rcases finds with ⟨_, _, ⟨_, -, rfl⟩, _, _, ⟨rfl, rfl⟩, _, _, ⟨_, -, rfl⟩, _, _, ⟨_, -, rfl⟩,
      _, _, rfl, -, rfl⟩
    exact ⟨⟨rfl, rfl, rfl, rfl⟩, rfl, awake.symm⟩

/-! ## One cycle -/

/-- A cycle changes the record and the counts as its trace says. -/
structure Tallies (before : Processor) (trace : CycleTrace) (flow : Flow) (after : Processor) :
    Prop where
  counted : after.cycle = before.cycle + 1
  awake : after.stalled.fetch = false
  ended : after.running = false ↔ flow = .exit
  branch : trace.branch.isSome = trace.executesJump
  silent : flow = .exit → trace.branch = none
  record : after.record = before.record.afterBranch before.cycle trace.branch
  events : after.events = before.events.afterCycle trace flow

theorem tallies_of_runCycle {trace : CycleTrace} {flow : Flow}
    (awake : before.stalled.fetch = false) (running : before.running = true)
    (ran : before.runCycle = (.ok (trace, flow), after)) : Tallies before trace flow after := by
  have turns := turn_of_runCycle running ran
  simp only [turn, yields_bind, yields_modify, yields_pure] at turns
  rcases turns with ⟨execution, first, executes, decoded, second, decodes, result, third, fetches,
    _, _, rfl, same, rfl⟩
  cases same
  have tells : Tells before execution first := by
    rcases yields_unlessStalled.mp executes with ⟨-, rfl, rfl⟩ | ⟨-, executes⟩
    · exact tells_idle _ rfl
    · exact tells_of_execute executes
  cases emptied : empties execution.branch execution.flow with
  | true =>
    rcases skips_of_all (tells.emptied emptied) decodes fetches with ⟨rfl, rfl, rfl⟩
    refine ⟨congrArg (· + 1) tells.cycle, rfl, tells.running running, tells.branch, tells.silent,
      tells.record, ?_⟩
    rw [finish, tells.events, EventTally.afterCycle, waits, emptied]
    rfl
  | false =>
    rcases course_of_decode ((tells.kept emptied).trans awake) decodes with ⟨decoding, stalls⟩
    rcases course_of_fetch fetches with ⟨fetching, events, waiting⟩
    refine ⟨?_, rfl, ?_, tells.branch, tells.silent, ?_, ?_⟩
    · exact congrArg (· + 1) ((fetching.cycle.trans decoding.cycle).trans tells.cycle)
    · rw [finish, fetching.running, decoding.running]
      exact tells.running running
    · exact (fetching.record.trans decoding.record).trans tells.record
    · rw [finish, events, stalls, tells.events, EventTally.afterCycle, waits, emptied, waiting]
      simp [EventTally.afterExecution]

/-! ## All cycles of a run -/

/-- The cycle is one whose trace has the property. -/
def Shows (results : List (CycleTrace × Flow)) (property : CycleTrace → Bool) (cycle : Nat) :
    Prop :=
  ∃ result, results[cycle]? = some result ∧ property result.1 = true

theorem shows_append {results : List (CycleTrace × Flow)} {result : CycleTrace × Flow}
    {property : CycleTrace → Bool} {cycle : Nat} :
    Shows (results ++ [result]) property cycle ↔
      Shows results property cycle ∨ cycle = results.length ∧ property result.1 = true := by
  unfold Shows
  rcases Nat.lt_trichotomy cycle results.length with earlier | rfl | later
  · rw [List.getElem?_append_left earlier]
    simp [Nat.ne_of_lt earlier]
  · simp
  · rw [List.getElem?_eq_none (by simp; omega), List.getElem?_eq_none (Nat.le_of_lt later)]
    simp [Nat.ne_of_gt later]

theorem Shows.lt_length {results : List (CycleTrace × Flow)} {property : CycleTrace → Bool}
    {cycle : Nat} (shows : Shows results property cycle) : cycle < results.length := by
  rcases shows with ⟨result, found, -⟩
  exact (List.getElem?_eq_some_iff.mp found).1

theorem shows_branch {results : List (CycleTrace × Flow)} {cycle : Nat} :
    Shows results (·.branch.isSome) cycle ↔
      Shows results CycleTrace.predicts cycle ∨ Shows results CycleTrace.mispredicts cycle := by
  unfold Shows
  simp only [CycleTrace.isSome_branch]
  cases results[cycle]? with
  | none => simp
  | some result => simp

/-- The list names the cycles that have the property, in their order. -/
structure Lists (cycles : List Nat) (results : List (CycleTrace × Flow))
    (property : CycleTrace → Bool) : Prop where
  mem_iff : ∀ cycle, cycle ∈ cycles ↔ Shows results property cycle
  increases : cycles.Pairwise (· < ·)

theorem Lists.append {cycles : List Nat} {results : List (CycleTrace × Flow)}
    {property : CycleTrace → Bool} (lists : Lists cycles results property)
    (result : CycleTrace × Flow) :
    Lists (cycles ++ if property result.1 then [results.length] else []) (results ++ [result])
      property where
  mem_iff cycle := by
    rw [List.mem_append, lists.mem_iff, shows_append]
    cases property result.1 <;> simp
  increases := by
    rw [List.pairwise_append]
    refine ⟨lists.increases, ?_, ?_⟩
    · cases property result.1 <;> simp
    · intro cycle listed last member
      have earlier := ((lists.mem_iff cycle).mp listed).lt_length
      cases holds : property result.1 with
      | true =>
        rw [holds, if_pos rfl, List.mem_singleton] at member
        exact member ▸ earlier
      | false =>
        rw [holds] at member
        cases member

/-- How the record, the counts and the results of a run belong together. -/
structure Tallied (processor : Processor) (results : List (CycleTrace × Flow)) : Prop where
  counted : processor.running = true → processor.cycle = results.length
  awake : processor.stalled.fetch = false
  ended : processor.running = false ↔ ∃ result ∈ results, result.2 = .exit
  branch : ∀ result ∈ results, result.1.branch.isSome = result.1.executesJump
  predicted : Lists processor.record.predicted.toList results CycleTrace.predicts
  mispredicted : Lists processor.record.mispredicted.toList results CycleTrace.mispredicts
  correct : processor.events.branches.correct = processor.record.predicted.size
  wrong : processor.events.branches.wrong = processor.record.mispredicted.size
  executions : processor.events.executions = results.countP (·.1.executed.isSome)
  jumps : processor.events.jumps = processor.record.branches
  flushes : processor.events.flushes =
    processor.record.mispredicted.size + (!processor.running).toNat
  fetchStalls : processor.events.fetchStalls =
    results.countP fun result => waits result.1 result.2

variable {configuration : Configuration} {kind : PredictorKind} {executable : Executable}
  {output : Output} {start reached : Processor}

/-- Nothing has been counted in a new processor. -/
theorem events_of_load (loads : load configuration kind executable output = .ok start) :
    start.events = {} := by
  rcases exists_parts_of_load loads with ⟨memory, inFlight, predictor, -, -, -, -, rfl⟩
  rfl

theorem tallied_of_load (loads : load configuration kind executable output = .ok start) :
    start.Tallied [] := by
  have loaded := loaded_of_load loads
  have events := events_of_load loads
  have none (property : CycleTrace → Bool) : Lists [] [] property := by
    refine ⟨?_, List.Pairwise.nil⟩
    intro cycle
    simp [Shows]
  refine ⟨fun _ => loaded.cycle, ?_, ?_, ?_, ?_, ?_, ?_, ?_, ?_, ?_, ?_, ?_⟩
  · rw [loaded.stalled]
    rfl
  · simp [loaded.running]
  · intro result member
    cases member
  · rw [loaded.record]
    exact none _
  · rw [loaded.record]
    exact none _
  · rw [loaded.record, events]
    rfl
  · rw [loaded.record, events]
    rfl
  · rw [events]
    decide
  · rw [loaded.record, events]
    decide
  · rw [loaded.record, events, loaded.running]
    rfl
  · rw [events]
    rfl

section

variable {trace : CycleTrace} {flow : Flow} {results : List (CycleTrace × Flow)}

theorem Tallies.predicted (tallies : Tallies before trace flow after) :
    after.record.predicted.toList = before.record.predicted.toList ++
      if trace.predicts then [before.cycle] else [] := by
  rw [tallies.record]
  exact before.record.predicted_afterBranch before.cycle trace.branch

theorem Tallies.mispredicted (tallies : Tallies before trace flow after) :
    after.record.mispredicted.toList = before.record.mispredicted.toList ++
      if trace.mispredicts then [before.cycle] else [] := by
  rw [tallies.record]
  exact before.record.mispredicted_afterBranch before.cycle trace.branch

theorem size_of_append {earlier later : Array Nat} {cycle : Nat} {holds : Bool}
    (appends : later.toList = earlier.toList ++ if holds then [cycle] else []) :
    later.size = earlier.size + holds.toNat := by
  rw [← Array.length_toList, appends, List.length_append, Array.length_toList]
  cases holds <;> rfl

/-- Every misprediction flushes the pipeline once, and so does the exit. -/
theorem Tallies.flushes (tallies : Tallies before trace flow after) :
    after.events.flushes =
      before.events.flushes + (trace.mispredicts.toNat + (!after.running).toNat) := by
  rw [tallies.events]
  show before.events.flushes + (empties trace.branch flow).toNat = _
  cases flow with
  | proceed =>
    have still : after.running = true := by
      rw [← Bool.not_eq_false, tallies.ended]
      decide
    have different : (Flow.proceed == Flow.exit) = false := rfl
    rw [still, empties, different]
    simp [CycleTrace.mispredicts]
  | exit =>
    rw [tallies.ended.mpr rfl]
    simp [empties, CycleTrace.mispredicts, tallies.silent rfl]

/-- A cycle of a running processor adds its result to the account. -/
theorem Tallies.tallied (tallies : Tallies before trace flow after)
    (tallied : before.Tallied results) (running : before.running = true) :
    after.Tallied (results ++ [(trace, flow)]) where
  counted _ := by
    rw [tallies.counted, tallied.counted running, List.length_append, List.length_singleton]
  awake := tallies.awake
  ended := by
    have ongoing : ¬ ∃ result ∈ results, result.2 = .exit := by
      rw [← tallied.ended, running]
      decide
    rw [tallies.ended]
    constructor
    · intro exits
      exact ⟨(trace, flow), List.mem_append_right _ (List.mem_singleton_self _), exits⟩
    · rintro ⟨result, member, exits⟩
      rcases List.mem_append.mp member with member | member
      · exact absurd ⟨result, member, exits⟩ ongoing
      · rw [List.mem_singleton.mp member] at exits
        exact exits
  branch := by
    intro result member
    rcases List.mem_append.mp member with member | member
    · exact tallied.branch result member
    · rw [List.mem_singleton.mp member]
      exact tallies.branch
  predicted := by
    rw [tallies.predicted, tallied.counted running]
    exact tallied.predicted.append (trace, flow)
  mispredicted := by
    rw [tallies.mispredicted, tallied.counted running]
    exact tallied.mispredicted.append (trace, flow)
  correct := by
    rw [tallies.events, EventTally.correct_afterCycle, tallied.correct,
      size_of_append tallies.predicted]
  wrong := by
    rw [tallies.events, EventTally.wrong_afterCycle, tallied.wrong,
      size_of_append tallies.mispredicted]
  executions := by
    rw [tallies.events, EventTally.executions_afterCycle, tallied.executions, List.countP_append,
      List.countP_singleton, Bool.toNat, Bool.cond_eq_ite]
  jumps := by
    rw [tallies.events, EventTally.jumps_afterCycle, tallied.jumps, tallies.record,
      BranchRecord.branches_afterBranch, tallies.branch]
  flushes := by
    rw [tallies.flushes, tallied.flushes, running, size_of_append tallies.mispredicted]
    exact Nat.add_assoc _ _ _ |>.symm
  fetchStalls := by
    rw [tallies.events, List.countP_append, List.countP_singleton, ← tallied.fetchStalls,
      EventTally.afterCycle, Bool.toNat, Bool.cond_eq_ite]

/-- After the exit every further call tells of nothing. -/
theorem Lists.append_idle {cycles : List Nat} {property : CycleTrace → Bool}
    {result : CycleTrace × Flow} (lists : Lists cycles results property)
    (idle : property result.1 = false) : Lists cycles (results ++ [result]) property := by
  have appended := lists.append result
  rw [idle, if_neg Bool.false_ne_true, List.append_nil] at appended
  exact appended

theorem Tallied.idle (tallied : before.Tallied results) (stopped : before.running = false) :
    before.Tallied (results ++ [({ cycle := before.cycle }, .exit)]) where
  counted running := by
    rw [stopped] at running
    cases running
  awake := tallied.awake
  ended := by
    refine ⟨fun _ => ?_, fun _ => stopped⟩
    exact ⟨_, List.mem_append_right _ (List.mem_singleton_self _), rfl⟩
  branch := by
    intro result member
    rcases List.mem_append.mp member with member | member
    · exact tallied.branch result member
    · rw [List.mem_singleton.mp member]
      rfl
  predicted := tallied.predicted.append_idle rfl
  mispredicted := tallied.mispredicted.append_idle rfl
  correct := tallied.correct
  wrong := tallied.wrong
  executions := by
    rw [tallied.executions, List.countP_append]
    rfl
  jumps := tallied.jumps
  flushes := tallied.flushes
  fetchStalls := by
    rw [tallied.fetchStalls, List.countP_append]
    rfl

theorem tallied_of_callCycles {count : Nat} (first : start.Tallied [])
    (called : start.callCycles count = (results.map .ok, reached)) :
    reached.Tallied results := by
  induction count generalizing results reached with
  | zero =>
    rcases Prod.mk.inj called with ⟨none, rfl⟩
    rw [List.map_eq_nil_iff.mp none.symm]
    exact first
  | succ count inductionHypothesis =>
    rcases callCycles_succ_ok.mp called with ⟨earlier, before, result, shorter, ran, rfl⟩
    have tallied := inductionHypothesis shorter
    cases running : before.running with
    | true => exact (tallies_of_runCycle tallied.awake running ran).tallied tallied running
    | false =>
      rw [runCycle_of_stopped running] at ran
      cases ran
      exact tallied.idle running

/-- Consistent accounting.  After any number of calls none of which has failed,
the two lists of the record are strictly increasing and have nothing in common,
and together they name the cycles whose trace has a branch, which are those that
executed one.  The four counts of branches add up to the lengths of the lists,
the counts of micro-operations to the number of cycles that executed one, and
the count of executed branches to the number of branches on record.  The
pipeline was flushed once for every misprediction and once for the exit.  Stalls
of fetch are counted in the cycles that show one, unless they mispredicted a
branch or ended the program. -/
theorem branches_accounted {count : Nat}
    (loads : load configuration kind executable output = .ok start)
    (called : start.callCycles count = (results.map .ok, reached)) :
    (reached.record.predicted.toList.Pairwise (· < ·) ∧
      reached.record.mispredicted.toList.Pairwise (· < ·) ∧
      ∀ cycle ∈ reached.record.predicted, cycle ∉ reached.record.mispredicted) ∧
    (∀ cycle, (cycle ∈ reached.record.predicted ∨ cycle ∈ reached.record.mispredicted ↔
        Shows results (·.branch.isSome) cycle) ∧
      (Shows results (·.branch.isSome) cycle ↔ Shows results (·.executesJump) cycle)) ∧
    (reached.events.branches.takenCorrect + reached.events.branches.untakenCorrect =
        reached.record.predicted.size ∧
      reached.events.branches.takenWrong + reached.events.branches.untakenWrong =
        reached.record.mispredicted.size) ∧
    (reached.events.executions = results.countP (·.1.executed.isSome) ∧
      reached.events.executed.get MicroOpcode.jump.index = reached.record.branches) ∧
    reached.events.flushes =
      reached.record.mispredicted.size + (if reached.running then 0 else 1) ∧
    (reached.running = false ↔ ∃ result ∈ results, result.2 = .exit) ∧
    reached.events.fetchStalls = results.countP fun result =>
      result.1.fetchStalled && !result.1.mispredicts && result.2 != .exit := by
  have tallied := tallied_of_callCycles (tallied_of_load loads) called
  have predicted (cycle : Nat) : cycle ∈ reached.record.predicted ↔
      Shows results CycleTrace.predicts cycle := by
    rw [← Array.mem_toList_iff]
    exact tallied.predicted.mem_iff cycle
  have mispredicted (cycle : Nat) : cycle ∈ reached.record.mispredicted ↔
      Shows results CycleTrace.mispredicts cycle := by
    rw [← Array.mem_toList_iff]
    exact tallied.mispredicted.mem_iff cycle
  refine ⟨⟨tallied.predicted.increases, tallied.mispredicted.increases, ?_⟩, ?_,
    ⟨tallied.correct, tallied.wrong⟩, ⟨tallied.executions, tallied.jumps⟩, ?_, tallied.ended, ?_⟩
  · intro cycle right wrong
    rcases (predicted cycle).mp right with ⟨result, found, right⟩
    rcases (mispredicted cycle).mp wrong with ⟨other, again, wrong⟩
    rw [found] at again
    cases again
    rw [CycleTrace.not_mispredicts right] at wrong
    cases wrong
  · intro cycle
    refine ⟨?_, ?_⟩
    · rw [predicted, mispredicted, shows_branch]
    · have same (result : CycleTrace × Flow) (found : results[cycle]? = some result) :
          result.1.branch.isSome = result.1.executesJump :=
        tallied.branch result (List.mem_of_getElem? found)
      constructor
      · rintro ⟨result, found, branches⟩
        exact ⟨result, found, (same result found).symm.trans branches⟩
      · rintro ⟨result, found, jumps⟩
        exact ⟨result, found, (same result found).trans jumps⟩
  · rw [tallied.flushes]
    cases reached.running <;> rfl
  · rw [tallied.fetchStalls]
    congr 1
    funext result
    rw [waits, empties, Bool.not_or, ← Bool.and_assoc]
    rfl

end

/-- Three rounds of a loop: its branch is mispredicted in the first and in the
last of them, and the exit flushes the pipeline once more. -/
theorem branches_accounted_three_rounds :
    ∃ start results reached, load cramped .twoBit threeRounds .accepting = .ok start ∧
      start.callCycles 40 = (results.map .ok, reached) ∧
      reached.record = { predicted := #[19], mispredicted := #[10, 26] } ∧
      reached.events.executed.get MicroOpcode.jump.index = 3 ∧ reached.events.flushes = 3 ∧
      Shows results (·.executesJump) 26 := by
  have computed : (resultsLoaded cramped .twoBit threeRounds .accepting 40).toOption.any
      (fun ends => decide (ends.2.running = false ∧
        ends.2.record = { predicted := #[19], mispredicted := #[10, 26] })) = true := by
    decide +kernel
  rcases exists_of_resultsLoaded computed with ⟨start, results, reached, loads, called, ends⟩
  rcases of_decide_eq_true ends with ⟨stopped, record⟩
  rcases branches_accounted loads called with ⟨-, listed, -, ⟨-, jumps⟩, flushes, -⟩
  rw [record] at jumps flushes
  rw [stopped] at flushes
  refine ⟨start, results, reached, loads, called, record, jumps, flushes, ?_⟩
  apply (listed 26).2.mp
  apply (listed 26).1.mp
  rw [record]
  exact Or.inr (by simp)

end Processor
end BranchPipeline
