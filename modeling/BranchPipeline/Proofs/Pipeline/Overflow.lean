import BranchPipeline.Proofs.Machine.Faults
import BranchPipeline.Proofs.Pipeline.Outstanding
import BranchPipeline.Proofs.Pipeline.Program

namespace BranchPipeline
namespace Processor

open Attempt

/-!
# No buffer overflows

Every buffer of the processor has a fixed number of places, and a full one
fails the cycle.  This never happens.  Decode looks at the room before it
issues a group, and what is outstanding is bounded by the branches in flight,
for which the check of the configuration provides the room.
-/

variable {before after : Processor} {stock reached : Stock} {fetched : Fetched} {source : Memory}
  {kind : PredictorKind} {room : Nat}

/-! ## One stage -/

theorem failsOnly_onMachine {α : Type} {operation : Attempt Machine Fault α} :
    (onMachine operation).FailsOnly before Fault.Foreign ↔
      operation.FailsOnly before.machine Fault.Foreign :=
  failsOnly_onPart

/-- An operation of the predictor that ends with a value causes no fault. -/
theorem failsOnly_onPredictor {α : Type} {operation : Attempt Predictor BufferFault α} {value : α}
    {predictor : Predictor} (ends : operation.Yields before.predictor value predictor) :
    (onPredictor operation).FailsOnly before Fault.Foreign :=
  Yields.failsOnly (yields_onPredictor.mpr ⟨predictor, ends, rfl⟩)

theorem failsOnly_unlessStalled {α : Type} {stalled : StageSet → Bool} {idle : α}
    {stage : Attempt Processor Fault α}
    (works : stalled before.stalled = false → stage.FailsOnly before Fault.Foreign) :
    (unlessStalled stalled idle stage).FailsOnly before Fault.Foreign := by
  rw [unlessStalled, failsOnly_bind]
  refine ⟨failsOnly_get, ?_⟩
  intro current middle same
  rcases yields_get.mp same with ⟨rfl, rfl⟩
  cases asleep : stalled middle.stalled with
  | true => exact failsOnly_pure
  | false => exact works asleep

theorem failsOnly_instructionAt {machine : Machine} (location : UInt64) :
    (instructionAt location).FailsOnly machine Fault.Foreign := by
  simp only [instructionAt, failsOnly_bind]
  refine ⟨Machine.failsOnly_readRegister _, ?_⟩
  intro textStart first _
  refine ⟨Machine.failsOnly_readRegister _, ?_⟩
  intro dataStart second _
  split
  · simp [Machine.failsOnly_readToken, Fault.Foreign]
  · exact failsOnly_pure

/-- Fetch finds room for its prediction as long as the queue is not full. -/
theorem failsOnly_fetch (trained : before.predictor.Trained kind source.Branching room)
    (fits : before.predictor.outstanding.length < room) :
    fetch.FailsOnly before Fault.Foreign := by
  simp only [fetch, failsOnly_bind, failsOnly_onMachine]
  refine ⟨Machine.failsOnly_readRegister _, ?_⟩
  intro current first reads
  rcases yields_onMachine.mp reads with ⟨machine, -, rfl⟩
  refine ⟨failsOnly_get, ?_⟩
  intro state second same
  rcases yields_get.mp same with ⟨rfl, rfl⟩
  rcases trained.exists_predict (fun _ : source.Branching current => fits) with
      ⟨location, predictor, predicts⟩
  refine ⟨failsOnly_onPredictor predicts, ?_⟩
  intro place third _
  simp [failsOnly_instructionAt]

/-- Decode issues only what both buffers have room for. -/
theorem failsOnly_decode (carries : before.Carries stock) :
    decode.FailsOnly before Fault.Foreign := by
  simp only [decode, failsOnly_bind]
  refine ⟨failsOnly_get, ?_⟩
  intro state first same
  rcases yields_get.mp same with ⟨rfl, rfl⟩
  refine ⟨by simp [Fault.Foreign], ?_⟩
  intro group second expands
  rcases yields_ofExcept.mp expands with ⟨expanded, rfl⟩
  split
  · simp
  · rename_i enough
    simp only [failsOnly_bind, failsOnly_onMachine]
    refine ⟨Machine.failsOnly_readRegister _, ?_⟩
    intro location third reads
    rcases yields_onMachine.mp reads with ⟨machine, -, rfl⟩
    have genuine : Packet.Genuine ⟨location, _, _, [], group⟩ :=
      ⟨expanded, List.ne_nil_of_length_pos (Instruction.length_pos expanded)⟩
    rcases carries.holds.exists_issue genuine rfl (Nat.not_lt.mp enough) with
        ⟨inFlight, issues, -, -⟩
    refine ⟨Yields.failsOnly (yields_onInFlight.mpr ⟨inFlight, issues, rfl⟩), ?_⟩
    simp

/-- The predictor takes in every outcome, so only the branch itself can fail. -/
theorem resolve_of_fails_resolveBranch {op : MicroOp} {entry : ReorderEntry}
    {successor : Successor} {fault : Fault}
    (trained : before.predictor.Trained kind source.Branching room)
    (branching : source.Branching entry.location)
    (fails : (resolveBranch op entry successor).Fails before fault after) :
    ∃ changed, (Machine.resolve op entry.location).Fails before.machine fault changed ∧
      after = { before with machine := changed } := by
  simp only [resolveBranch, fails_bind] at fails
  rcases fails with fails | ⟨resolution, first, resolves, fails⟩
  · rcases fails_onPart.mp fails with ⟨cause, changed, failed, rfl, rfl⟩
    exact ⟨changed, failed, rfl⟩
  · exfalso
    rcases yields_onMachine.mp resolves with ⟨machine, -, rfl⟩
    rcases trained.exists_update branching resolution.target resolution.taken with
        ⟨taught, updates, kept, -⟩
    have noted : (onPredictor (Predictor.update entry.location resolution.target
        resolution.taken)).Yields { before with machine } ()
          { before with machine, predictor := taught } :=
      yields_onPredictor.mpr ⟨taught, updates, rfl⟩
    rcases fails with fails | ⟨_, second, ends, fails⟩
    · exact noted.not_fails fails
    · rcases noted.unique ends with ⟨-, rfl⟩
      rcases kept.exists_stall with ⟨settled, stalls, -, -⟩
      split at fails
      · simp only [fails_bind, fails_modify, fails_pure, yields_modify, false_or, or_false,
          and_false, exists_false, exists_const, exists_eq_left] at fails
        exact Yields.not_fails (yields_onPredictor.mpr ⟨settled, stalls, rfl⟩) fails
      · simp at fails

/-- So no buffer is too small for it. -/
theorem failsOnly_resolveBranch {op : MicroOp} {entry : ReorderEntry} {successor : Successor}
    (trained : before.predictor.Trained kind source.Branching room)
    (branching : source.Branching entry.location) :
    (resolveBranch op entry successor).FailsOnly before Fault.Foreign := by
  intro fault after fails
  rcases resolve_of_fails_resolveBranch trained branching fails with ⟨changed, failed, -⟩
  exact Machine.failsOnly_resolve _ fault changed failed

theorem failsOnly_systemCall : systemCall.FailsOnly before Fault.Foreign := by
  simp only [systemCall, failsOnly_bind, failsOnly_onMachine]
  refine ⟨Machine.failsOnly_systemCall, ?_⟩
  intro exits middle _
  cases exits <;> simp

/-- The execute stage uses no buffer but the predictor's. -/
theorem Traced.failsOnly_execute (traced : Traced source kind room before stock)
    (carries : before.Carries stock) : execute.FailsOnly before Fault.Foreign := by
  simp only [execute, failsOnly_bind]
  refine ⟨failsOnly_get, ?_⟩
  intro state first same
  rcases yields_get.mp same with ⟨rfl, rfl⟩
  have holds := carries.holds
  cases packets : stock.packets with
  | nil =>
    rw [packets] at holds
    rw [holds.head?_nil]
    simp
  | cons packet later =>
    rw [packets] at holds
    have genuine := carries.genuine_head packets
    rcases List.exists_cons_of_ne_nil genuine.pending with ⟨op, rest, front⟩
    rw [holds.head?_cons front]
    simp only
    split
    · exact failsOnly_pure
    · rename_i branches _
      have branching := traced.branching packets genuine front branches
      simp only [failsOnly_bind]
      exact ⟨failsOnly_resolveBranch traced.trained branching, by simp⟩
    · simp only [failsOnly_bind]
      exact ⟨failsOnly_systemCall, by simp⟩
    · simp only [failsOnly_bind, failsOnly_onMachine]
      exact ⟨Machine.failsOnly_operate, by simp⟩

/-! ## One cycle -/

/-- The execute stage leaves the others something to go on with, or it stalls
them. -/
theorem Tracked.executed {execution : Execution} (stocked : before.Stocked stock)
    (tracked : Tracked source kind room before stock) (spares : source.SparesBounds)
    (executes : (unlessStalled StageSet.execute {} execute).Yields before execution after) :
    after.stalled = .all ∨
      ∃ reached, Tracked source kind room after reached ∧
        after.inFlight.capacity = before.inFlight.capacity := by
  rcases stocked.executes executes with
      ⟨-, -, rfl⟩ | ⟨packet, op, rest, later, packets, front, executes⟩
  · exact Or.inr ⟨stock, tracked, rfl⟩
  · cases executes with
    | acted plain acts =>
      exact Or.inr ⟨_, acts.tracked tracked spares packets front plain, acts.toRetires.capacity⟩
    | exited calls exits => exact Or.inl exits.stalled
    | confirmed branches behind right confirms =>
      rw [(stocked.packets_of_jump packets front branches).1] at front
      exact Or.inr ⟨_, confirms.tracked tracked packets front branches,
        confirms.toRetires.capacity⟩
    | redirected branches behind wrong redirects => exact Or.inl redirects.stalled

/-- Decode leaves the predictor alone. -/
theorem predictor_of_decode {decoded : Option Decoded}
    (decodes : decode.Yields before decoded after) : after.predictor = before.predictor := by
  simp only [decode, yields_bind, yields_get, and_assoc, exists_and_left, exists_eq_left,
    yields_ofExcept] at decodes
  rcases decodes with ⟨group, -, decodes⟩
  split at decodes
  · simp only [yields_bind, yields_set, yields_pure] at decodes
    rcases decodes with ⟨_, _, rfl, -, rfl⟩
    rfl
  · simp only [yields_bind, yields_onMachine, yields_onInFlight, yields_modify, yields_pure]
      at decodes
    rcases decodes with ⟨_, _, ⟨machine, -, rfl⟩, _, _, ⟨inFlight, -, rfl⟩, _, _, rfl, -, rfl⟩
    rfl

/-- A cycle finds room for everything that it puts into a buffer. -/
theorem Tracked.failsOnly_turn (stocked : before.Stocked stock)
    (tracked : Tracked source kind room before stock) (spares : source.SparesBounds)
    (enough : (before.inFlight.capacity + 1) / 2 < room) (cycle : Nat) :
    (turn cycle).FailsOnly before Fault.Foreign := by
  simp only [turn, failsOnly_bind]
  refine ⟨failsOnly_unlessStalled fun _ =>
    tracked.toTraced.failsOnly_execute tracked.toCarries, ?_⟩
  intro execution first executes
  rcases tracked.executed stocked spares executes with stalled | ⟨reached, ready, capacity⟩
  · have idle {stage : StageSet → Bool} (asleep : stage .all = true) :
        stage first.stalled = false → False := by
      rw [stalled, asleep]
      exact Bool.noConfusion
    refine ⟨failsOnly_unlessStalled fun awake => (idle rfl awake).elim, ?_⟩
    intro decoded second decodes
    rcases yields_unlessStalled.mp decodes with ⟨-, -, rfl⟩ | ⟨awake, -⟩
    · exact ⟨failsOnly_unlessStalled fun awake => (idle rfl awake).elim, by simp⟩
    · exact (idle rfl awake).elim
  · refine ⟨failsOnly_unlessStalled fun _ => failsOnly_decode ready.toCarries, ?_⟩
    intro decoded second decodes
    have same : second.predictor = first.predictor := by
      rcases yields_unlessStalled.mp decodes with ⟨-, -, rfl⟩ | ⟨-, decodes⟩
      · rfl
      · exact predictor_of_decode decodes
    have few := ready.few
    have trained := ready.trained
    rw [capacity, ← same] at few
    rw [← same] at trained
    refine ⟨failsOnly_unlessStalled fun _ => ?_, by simp⟩
    rw [failsOnly_map]
    exact failsOnly_fetch trained (Nat.lt_of_le_of_lt few enough)

/-! ## All cycles of a run -/

/-- What holds in every state of a run.  The queue is bounded also when the
program has ended, but then the branches are no longer in flight. -/
structure Supervised (source : Memory) (kind : PredictorKind) (room capacity : Nat)
    (processor : Processor) : Prop where
  tracked : processor.running = true → ∃ stock, processor.Stocked stock ∧
    Tracked source kind room processor stock ∧ processor.inFlight.capacity = capacity
  kind : processor.predictor.kind = kind
  few : processor.predictor.outstanding.length ≤ (capacity + 1) / 2

variable {capacity : Nat}

theorem Tracked.supervised (stocked : before.Stocked stock)
    (tracked : Tracked source kind room before stock)
    (slots : before.inFlight.capacity = capacity) :
    before.Supervised source kind room capacity where
  tracked _ := ⟨stock, stocked, tracked, slots⟩
  kind := tracked.trained.kind
  few := slots ▸ tracked.few

theorem Supervised.next {trace : CycleTrace} {flow : Flow}
    (supervised : before.Supervised source kind room capacity) (spares : source.SparesBounds)
    (ran : before.runCycle = (.ok (trace, flow), after)) :
    after.Supervised source kind room capacity := by
  cases running : before.running with
  | true =>
    rcases supervised.tracked running with ⟨stock, stocked, tracked, slots⟩
    rcases stocked.turns running ran with ⟨reached, turns⟩
    cases still : after.running with
    | true =>
      exact (turns.tracked stocked tracked spares still).supervised (turns.stocked stocked still)
        (turns.capacity.trans slots)
    | false =>
      have same : after.predictor = before.predictor := by
        rcases turns.running_or_predictor with same | same
        · rw [running, still] at same
          cases same
        · exact same
      refine ⟨?_, ?_, ?_⟩
      · intro running
        rw [still] at running
        cases running
      · rw [same]
        exact supervised.kind
      · rw [same]
        exact supervised.few
  | false =>
    rw [runCycle_of_stopped running] at ran
    cases ran
    exact supervised

/-- No cycle fails for lack of room in a buffer. -/
theorem Supervised.foreign {fault : Fault}
    (supervised : before.Supervised source kind room capacity) (spares : source.SparesBounds)
    (enough : (capacity + 1) / 2 < room) (fails : before.runCycle = (.error fault, after)) :
    fault.Foreign := by
  cases running : before.running with
  | true =>
    rcases supervised.tracked running with ⟨stock, stocked, tracked, rfl⟩
    rcases runCycle_of_running running with turns | ⟨limit, late, -⟩
    · rw [turns] at fails
      exact tracked.failsOnly_turn stocked spares enough _ fault after fails
    · rw [late] at fails
      cases fails
      trivial
  | false =>
    rw [runCycle_of_stopped running] at fails
    cases fails

section

variable {configuration : Configuration} {executable : Executable} {output : Output}
  {start : Processor}

/-- Nothing is in flight in a new processor, and nothing is outstanding. -/
theorem Loaded.tracked (loaded : Loaded configuration kind executable output start) :
    Tracked start.machine.memory kind configuration.outstandingCapacity start
      ⟨[], none, executable.textSection.start.toUInt64⟩ := by
  have empty := (Predictor.trained_of_create loaded.predictor (fun _ => True)).2.2
  refine ⟨loaded.stocked.toCarries, loaded.traced, ?_⟩
  rw [empty]
  exact List.nil_sublist _

theorem Loaded.supervised (loaded : Loaded configuration kind executable output start) :
    start.Supervised start.machine.memory kind configuration.outstandingCapacity
      configuration.inFlightCapacity :=
  loaded.tracked.supervised loaded.stocked loaded.capacity_eq

theorem Loaded.supervised_of_runCycles {count : Nat} {traces : List CycleTrace}
    (loaded : Loaded configuration kind executable output start)
    (spares : executable.SparesBounds) (ran : start.runCycles count = .ok (traces, after)) :
    after.Supervised start.machine.memory kind configuration.outstandingCapacity
      configuration.inFlightCapacity := by
  induction count generalizing traces after with
  | zero =>
    cases ran
    exact loaded.supervised
  | succ count inductionHypothesis =>
    rcases runCycles_succ.mp ran with ⟨earlier, before, trace, flow, shorter, once, rfl⟩
    exact (inductionHypothesis shorter).next (loaded.sparesBounds spares) once

/-- The addresses of the outstanding predictions stand in the queue. -/
theorem outstanding_of_gshare {addresses : List UInt64}
    (history : before.predictor.kind = .gshare)
    (queue : before.predictor.outstanding = addresses) :
    ∃ gshare, before.predictor.strategy = .gshare gshare ∧
      gshare.outstanding.toList.map (·.source) = addresses := by
  cases strategy : before.predictor.strategy with
  | gshare gshare =>
    rw [Predictor.outstanding, strategy] at queue
    exact ⟨gshare, rfl, queue⟩
  | alwaysNotTaken | alwaysTaken | oneBit | twoBit =>
    rw [Predictor.kind, strategy] at history
    cases history

/-- The queue of outstanding predictions follows the branches in flight.  As
long as the program runs, the addresses in the queue are a part of the
locations of the branches in the reorder buffer, in the same order.  The queue
never holds more than one prediction for every two places in the buffers, also
not after the exit, which empties the buffers but not the queue.  No cycle ever
fails because a buffer, the queue or the history is full. -/
theorem outstanding_in_flight {reached : Processor} {count : Nat} {traces : List CycleTrace}
    (loads : load configuration .gshare executable output = .ok start)
    (spares : executable.SparesBounds) (ran : start.runCycles count = .ok (traces, reached)) :
    ∃ gshare, reached.predictor.strategy = .gshare gshare ∧
      (reached.running = true →
        (gshare.outstanding.toList.map (·.source)).Sublist reached.inFlight.branchLocations) ∧
      gshare.outstanding.size ≤
        (min configuration.reorderCapacity configuration.pipelineCapacity + 1) / 2 ∧
      ∀ fault after, reached.runCycle ≠ (.error (.buffer fault), after) := by
  have loaded := loaded_of_load loads
  have supervised := loaded.supervised_of_runCycles spares ran
  have enough := loaded.outstanding_lt
  rcases outstanding_of_gshare supervised.kind rfl with ⟨gshare, strategy, queue⟩
  refine ⟨gshare, strategy, ?_, ?_, ?_⟩
  · intro running
    rcases supervised.tracked running with ⟨stock, stocked, tracked, -⟩
    rw [queue, stocked.holds.branchLocations_eq]
    exact tracked.queued
  · have few := supervised.few
    rw [← queue, List.length_map, Ring.length_toList] at few
    exact few
  · intro fault after fails
    exact supervised.foreign (loaded.sparesBounds spares) enough fails

end

/-- A loop whose last round makes the system call that ends the program, while
the branch behind the call has already been predicted. -/
def leavingLoop : Executable :=
  .ofParts ["mov rcx 7", "mov rax rcx", "syscall", "jmp 6", "mov rcx 60", "jmp 3"] []

theorem leavingLoop_sparesBounds : leavingLoop.SparesBounds :=
  Executable.sparesBounds_of_groups (by decide +kernel)

/-- In the last cycle before the exit, the branch at 5 is outstanding. -/
theorem outstanding_in_flight_before_exit :
    ∃ start traces reached gshare,
      load { memorySize := 8 } .gshare leavingLoop .accepting = .ok start ∧
      leavingLoop.SparesBounds ∧ start.runCycles 17 = .ok (traces, reached) ∧
      reached.predictor.strategy = .gshare gshare ∧
      gshare.outstanding.toList.map (·.source) = [5] ∧
      List.Sublist [5] reached.inFlight.branchLocations := by
  have computed : (runLoaded { memorySize := 8 } .gshare leavingLoop .accepting 17).toOption.any
      (fun ends => decide (ends.2.running = true ∧ ends.2.predictor.kind = .gshare ∧
        ends.2.predictor.outstanding = [5])) = true := by
    decide +kernel
  rcases exists_of_runLoaded computed with ⟨start, traces, reached, loads, ran, ends⟩
  rcases of_decide_eq_true ends with ⟨running, history, queue⟩
  rcases outstanding_of_gshare history queue with ⟨gshare, strategy, sources⟩
  rcases outstanding_in_flight loads leavingLoop_sparesBounds ran with ⟨same, found, within, -⟩
  rw [strategy] at found
  cases found
  rw [← sources]
  exact ⟨start, traces, reached, gshare, loads, leavingLoop_sparesBounds, ran, strategy, rfl,
    within running⟩

/-- The exit drops everything in flight and leaves the prediction in the
queue. -/
theorem outstanding_not_in_flight_after_exit :
    ∃ start traces reached gshare,
      load { memorySize := 8 } .gshare leavingLoop .accepting = .ok start ∧
      leavingLoop.SparesBounds ∧ start.runCycles 18 = .ok (traces, reached) ∧
      reached.predictor.strategy = .gshare gshare ∧
      ¬ (gshare.outstanding.toList.map (·.source)).Sublist reached.inFlight.branchLocations := by
  have computed : (runLoaded { memorySize := 8 } .gshare leavingLoop .accepting 18).toOption.any
      (fun ends => decide (ends.2.predictor.kind = .gshare ∧
        ends.2.predictor.outstanding = [5] ∧ ends.2.inFlight.branchLocations = [])) = true := by
    decide +kernel
  rcases exists_of_runLoaded computed with ⟨start, traces, reached, loads, ran, ends⟩
  rcases of_decide_eq_true ends with ⟨history, queue, none⟩
  rcases outstanding_of_gshare history queue with ⟨gshare, strategy, sources⟩
  refine ⟨start, traces, reached, gshare, loads, leavingLoop_sparesBounds, ran, strategy, ?_⟩
  rw [sources, none]
  intro within
  cases within

end Processor
end BranchPipeline
