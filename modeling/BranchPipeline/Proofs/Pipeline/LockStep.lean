import BranchPipeline.Proofs.Pipeline.Overflow
import BranchPipeline.Proofs.Prediction.Naming

namespace BranchPipeline

open Attempt

/-!
# What no fault can break

A cycle that fails stops wherever it is, and the next call starts from there.
The order of an undisturbed run is lost by that, but something remains.  The two
buffers hold the same micro-operations in the same order, neither of them ever
gets a group for which it has no room, and what decode finds is what was fetched
last.

Each stage is followed to both of its ends for this: to its value, and to every
fault that it can have.
-/

/-- What both buffers know of a micro-operation. -/
def MicroOp.label (op : MicroOp) : MicroOpcode × Bool := (op.opcode, op.speculative)

/-- What both buffers know of a micro-operation. -/
def ReorderEntry.label (entry : ReorderEntry) : MicroOpcode × Bool :=
  (entry.opcode, entry.speculative)

namespace InFlight

/-- The two buffers hold the same micro-operations, each of them of an
instruction. -/
structure InStep (inFlight : InFlight) : Prop where
  labels : inFlight.reorder.toList.map ReorderEntry.label =
    inFlight.pipeline.toList.map MicroOp.label
  writable : ∀ op ∈ inFlight.pipeline.toList, op.opcode = .store →
    ∃ target, op.operand = some target ∧ target.isWritable = true

variable {inFlight : InFlight}

theorem inStep_of_create {reorderCapacity pipelineCapacity : Nat}
    (made : create reorderCapacity pipelineCapacity = .ok inFlight) : inFlight.InStep := by
  have holds := (holds_of_create made).1
  refine ⟨?_, ?_⟩
  · rw [holds.reorder, holds.pipeline]
    rfl
  · rw [holds.pipeline]
    exact fun _ member => nomatch member

theorem InStep.retire (inStep : inFlight.InStep) : inFlight.retire.InStep where
  labels := by
    rw [InFlight.retire, Ring.toList_remove, Ring.toList_remove, List.map_tail, List.map_tail,
      inStep.labels]
  writable := by
    intro op member
    rw [InFlight.retire, Ring.toList_remove] at member
    exact inStep.writable op (List.mem_of_mem_tail member)

theorem inStep_flush (inFlight : InFlight) : inFlight.flush.InStep where
  labels := by
    rw [flush, Ring.toList_flush, Ring.toList_flush]
    rfl
  writable := by
    intro op member
    rw [flush, Ring.toList_flush] at member
    cases member

/-- A branch that learns its successor stays the micro-operation that it is. -/
theorem labels_annotate (inFlight : InFlight) (next : Successor) :
    (inFlight.annotate next).reorder.toList.map ReorderEntry.label =
      inFlight.reorder.toList.map ReorderEntry.label := by
  unfold annotate
  cases youngest : inFlight.reorder.youngest? with
  | none => rfl
  | some entry =>
    simp only
    split
    · rw [Ring.youngest?_eq, List.getLast?_eq_some_iff] at youngest
      rcases youngest with ⟨front, entries⟩
      have place : inFlight.reorder.size - 1 = front.length := by
        rw [← Ring.length_toList, entries, List.length_append, List.length_singleton,
          Nat.add_sub_cancel]
      rw [Ring.toList_replace, entries, place, List.set_append_right _ _ (Nat.le_refl _),
        Nat.sub_self, List.set_cons_zero, List.map_append, List.map_append]
      rfl
    · rfl

theorem capacity_reorder_annotate (inFlight : InFlight) (next : Successor) :
    (inFlight.annotate next).reorder.capacity = inFlight.reorder.capacity := by
  unfold annotate
  split
  · split
    · exact Ring.capacity_replace _ _ _
    · rfl
  · rfl

/-- A group for which there is room is issued without fail. -/
theorem InStep.exists_issue (inStep : inFlight.InStep) {token : String} {speculative : Bool}
    {group : List MicroOp} (expanded : Instruction.expand token speculative = .ok group)
    (room : group.length ≤ inFlight.free) (location : UInt64) :
    ∃ after, (issue group location).Yields inFlight () after ∧ after.InStep ∧
      after.capacity = inFlight.capacity := by
  rw [free, Ring.free_eq, Ring.free_eq] at room
  cases listed : group with
  | nil => exact ⟨inFlight, rfl, inStep, rfl⟩
  | cons first rest =>
    let told : InFlight := inFlight.annotate ⟨location, first.speculative⟩
    have labels : told.reorder.toList.map ReorderEntry.label =
        inFlight.reorder.toList.map ReorderEntry.label := labels_annotate _ _
    have lengths := congrArg List.length labels
    rw [List.length_map, List.length_map] at lengths
    rcases pipeline_annotate inFlight ⟨location, first.speculative⟩ with ⟨pipeline, capacity⟩
    have reorderBound := inFlight.reorder.length_toList_le
    have pipelineBound := inFlight.pipeline.length_toList_le
    rcases exists_appendAll group location told
      (by rw [lengths, capacity_reorder_annotate]; omega)
      (by rw [pipeline]; omega) with ⟨after, appends, entries, ops, slots⟩
    refine ⟨after, ?_, ⟨?_, ?_⟩, slots.trans capacity⟩
    · rw [listed] at appends
      exact yields_bind.mpr ⟨(), told, yields_modify.mpr rfl, appends⟩
    · rw [entries, ops, List.map_append, List.map_append, labels, pipeline, inStep.labels,
        List.map_map]
      rfl
    · intro op member stores
      rw [ops, pipeline] at member
      rcases List.mem_append.mp member with member | member
      · exact inStep.writable op member stores
      · exact Instruction.writable_of_store expanded member stores

/-- The oldest micro-operation is one of those in the pipeline buffer. -/
theorem mem_of_head? {op : MicroOp} {entry : ReorderEntry}
    (head : inFlight.head? = some (op, entry)) : op ∈ inFlight.pipeline.toList := by
  rw [head?, Ring.oldest?_eq] at head
  cases ops : inFlight.pipeline.toList with
  | nil =>
    rw [ops] at head
    cases head
  | cons first rest =>
    rw [ops] at head
    cases oldest : inFlight.reorder.oldest? with
    | none =>
      rw [oldest] at head
      cases head
    | some other =>
      rw [oldest] at head
      cases head
      exact List.mem_cons_self

end InFlight

/-! ## What every call leaves behind -/

/-- If a ring is full, it is neither of the two buffers. -/
def Fault.SparesInFlight : Fault → Prop
  | buffer fault => fault.OfPredictor
  | _ => True

theorem Fault.Foreign.sparesInFlight {fault : Fault} (foreign : fault.Foreign) :
    fault.SparesInFlight := by
  cases fault with
  | buffer fault => exact foreign.elim
  | _ => trivial

namespace Processor

/-- What holds after any calls, failed ones included.  If decode is not stalled,
it finds the instruction that was fetched last. -/
structure Sound (capacity : Nat) (latest : Option Fetched) (processor : Processor) : Prop where
  inStep : processor.inFlight.InStep
  slots : processor.inFlight.capacity = capacity
  named : processor.predictor.Named
  handed : processor.stalled.decode = false → ∃ fetched, latest = some fetched ∧
    processor.machine.registers.content .cir =
      .text (handedOver fetched.token fetched.speculative)

/-- However the operation ends, the processor stays sound, and neither of the two
buffers is full. -/
abbrev Endures {α : Type} (capacity : Nat) (latest : Option Fetched)
    (operation : Attempt Processor Fault α) : Prop :=
  operation.Keeps (Sound capacity latest) Fault.SparesInFlight

variable {α : Type} {capacity : Nat} {latest : Option Fetched} {before after : Processor}

/-- Only these parts of the processor matter. -/
theorem Sound.of_eq (sound : before.Sound capacity latest)
    (machine : after.machine = before.machine)
    (inFlight : after.inFlight = before.inFlight) (predictor : after.predictor = before.predictor)
    (stalled : after.stalled.decode = before.stalled.decode) : after.Sound capacity latest where
  inStep := inFlight ▸ sound.inStep
  slots := inFlight ▸ sound.slots
  named := predictor ▸ sound.named
  handed := by
    rw [machine, stalled]
    exact sound.handed

theorem Sound.withMachine {machine : Machine} (sound : before.Sound capacity latest)
    (same : machine.registers.content .cir = before.machine.registers.content .cir) :
    { before with machine }.Sound capacity latest := by
  refine ⟨sound.inStep, sound.slots, sound.named, ?_⟩
  intro awake
  rcases sound.handed awake with ⟨fetched, last, cir⟩
  exact ⟨fetched, last, same.trans cir⟩

theorem endures_onMachine {operation : Attempt Machine Fault α}
    (spares : Machine.Spares .cir operation) : Endures capacity latest (onMachine operation) := by
  intro before sound
  refine ends_onPart.mpr ((spares _ before.machine rfl).mono ?_ ?_)
  · intro value machine same
    exact sound.withMachine same
  · rintro fault machine ⟨foreign, same⟩
    exact ⟨foreign.sparesInFlight, sound.withMachine same⟩

theorem endures_onPredictor {operation : Attempt Predictor BufferFault α}
    (keeps : Predictor.KeepsNames operation) : Endures capacity latest (onPredictor operation) := by
  intro before sound
  refine ends_onPart.mpr ((keeps before.predictor sound.named).mono ?_ ?_)
  · intro value predictor named
    exact ⟨sound.inStep, sound.slots, named, sound.handed⟩
  · rintro fault predictor ⟨own, named⟩
    exact ⟨own, sound.inStep, sound.slots, named, sound.handed⟩

theorem Sound.flush (sound : before.Sound capacity latest) :
    before.flush.Sound capacity latest where
  inStep := InFlight.inStep_flush _
  slots := sound.slots
  named := sound.named
  handed awake := nomatch awake

theorem Sound.retire (sound : before.Sound capacity latest) (op : MicroOp) :
    (retire op before).Sound capacity latest where
  inStep := sound.inStep.retire
  slots := (InFlight.capacity_retire _).trans sound.slots
  named := sound.named
  handed := sound.handed

theorem endures_resolveBranch (op : MicroOp) (entry : ReorderEntry) (successor : Successor) :
    Endures capacity latest (resolveBranch op entry successor) := by
  refine (endures_onMachine (Machine.spares_resolve _)).bind fun resolution => ?_
  refine (endures_onPredictor (Predictor.keepsNames_update _ _ _)).bind fun _ => ?_
  have noted {change : Processor → Processor} {outcome : BranchOutcome}
      (kept : ∀ before : Processor, before.Sound capacity latest →
        (change before).Sound capacity latest) :
      Endures capacity latest (do modify change; return outcome) :=
    (keeps_modify kept).bind fun _ => keeps_pure
  dsimp only
  split
  · refine (keeps_modify fun _ sound => sound.flush).bind fun _ => ?_
    refine Keeps.bind (keeps_modify fun before sound => ?_) fun _ => ?_
    · exact sound.withMachine (RegisterFile.content_put_of_ne _ _ _ _ (by decide))
    · refine (endures_onPredictor Predictor.keepsNames_stall).bind fun _ => ?_
      exact noted fun _ sound => sound.of_eq rfl rfl rfl rfl
  · exact noted fun _ sound => sound.of_eq rfl rfl rfl rfl

theorem endures_systemCall : Endures capacity latest systemCall := by
  refine (endures_onMachine Machine.spares_systemCall).bind fun exits => ?_
  split
  · refine Keeps.bind (keeps_modify fun _ sound => ?_) fun _ => ?_
    · exact sound.of_eq rfl rfl rfl rfl
    · exact (keeps_modify fun _ sound => sound.flush).bind fun _ => keeps_pure
  · exact keeps_pure

/-- The execute stage keeps the buffers in step and what was fetched. -/
theorem endures_execute : Endures capacity latest execute := by
  refine keeps_get_bind fun before sound => ?_
  split
  · simp only [ends_bind, ends_modify, ends_pure]
    exact sound.of_eq rfl rfl rfl rfl
  · rename_i op entry head
    have retires {execution : Execution} :
        Endures capacity latest (do modify (Processor.retire op); return execution) :=
      (keeps_modify fun _ sound => sound.retire op).bind fun _ => keeps_pure
    split
    · exact keeps_pure before sound
    · exact (endures_resolveBranch op entry _).bind (fun _ => retires) before sound
    · exact endures_systemCall.bind (fun _ => retires) before sound
    · have spares : Machine.Spares .cir (Machine.operate op) := Machine.spares_operate rfl
        (sound.inStep.writable op (InFlight.mem_of_head? head))
      exact (endures_onMachine spares).bind (fun _ => retires) before sound

theorem endures_executeStage :
    Endures capacity latest (unlessStalled StageSet.execute {} execute) :=
  fun before sound => ends_unlessStalled (fun _ => sound) fun _ => endures_execute before sound

/-- Decode looks at the room before it issues, so it never finds a full buffer.
Whatever it does, it stalls itself or fetch. -/
theorem ends_decode (sound : before.Sound capacity latest) :
    decode.Ends before
      (fun _ after => after.Sound capacity latest ∧
        (after.stalled.fetch = false → after.stalled.decode = true))
      fun fault after => fault.SparesInFlight ∧ after.Sound capacity latest := by
  simp only [decode, ends_bind, ends_get, ends_ofExcept]
  refine ⟨fun group expanded => ?_, fun _ _ => ⟨trivial, sound⟩⟩
  split
  · simp only [ends_bind, ends_set, ends_pure]
    refine ⟨sound.of_eq rfl rfl rfl rfl, ?_⟩
    intro awake
    cases awake
  · rename_i room
    have reads : Machine.Spares .cir (Machine.readRegister (.full .mar)) :=
      Machine.spares_readRegister _
    simp only [ends_bind, onMachine, ends_onPart]
    refine (reads _ before.machine rfl).mono ?_ ?_
    · intro location machine same
      -- the group has just been found to fit, so issuing it cannot fail half-way
      rcases sound.inStep.exists_issue expanded (Nat.not_lt.mp room) location with
          ⟨inFlight, issues, inStep, slots⟩
      refine Yields.ends (yields_onInFlight.mpr ⟨inFlight, issues, rfl⟩) ?_
      simp only [ends_modify, ends_pure]
      refine ⟨⟨inStep, slots.trans sound.slots, sound.named, ?_⟩, fun _ => trivial⟩
      intro awake
      cases awake
    · rintro fault machine ⟨foreign, same⟩
      exact ⟨foreign.sparesInFlight, sound.withMachine same⟩

/-- As long as decode is stalled, it does not matter what was fetched. -/
theorem Sound.of_asleep {newest : Option Fetched} (sound : before.Sound capacity latest)
    (asleep : before.stalled.decode = true) (stalled : after.stalled = before.stalled)
    (inFlight : after.inFlight = before.inFlight) (named : after.predictor.Named) :
    after.Sound capacity newest := by
  refine ⟨inFlight ▸ sound.inStep, inFlight ▸ sound.slots, named, fun awake => ?_⟩
  rw [stalled, asleep] at awake
  cases awake

/-- Fetch runs when decode is stalled.  It wakes decode only after the
instruction has been handed over. -/
theorem ends_fetch (sound : before.Sound capacity latest)
    (asleep : before.stalled.decode = true) :
    fetch.Ends before (fun fetched after => after.Sound capacity (some fetched))
      fun fault after => fault.SparesInFlight ∧ after.Sound capacity latest := by
  simp only [fetch, ends_bind, onMachine, onPredictor, ends_onPart, ends_get]
  refine (Machine.failsOnly_readRegister _).ends.mono ?_ ?_
  · intro current machine _
    refine (Predictor.keepsNames_predict current before.predictor sound.named).mono ?_ ?_
    · intro location predictor named
      simp only [ends_modify, ends_pure]
      refine (failsOnly_instructionAt location).ends.mono ?_ ?_
      · intro token answered _
        refine ⟨sound.inStep, sound.slots, named, fun _ => ⟨_, rfl, ?_⟩⟩
        exact RegisterFile.content_put_self _ _ _
      · intro fault answered foreign
        exact ⟨foreign.sparesInFlight, sound.of_asleep asleep rfl rfl named⟩
    · rintro fault predictor ⟨own, named⟩
      exact ⟨own, sound.of_asleep asleep rfl rfl named⟩
  · intro fault machine foreign
    exact ⟨foreign.sparesInFlight, sound.of_asleep asleep rfl rfl sound.named⟩

/-! ## All calls -/

/-- The instruction that a call says it has fetched. -/
def reportedFetch : Except Fault (CycleTrace × Flow) → Option Fetched
  | .ok (trace, _) => trace.fetched
  | .error _ => none

/-- The instruction that was fetched last, as far as the calls have said so. -/
def latestFetch (outcomes : List (Except Fault (CycleTrace × Flow))) : Option Fetched :=
  (outcomes.filterMap reportedFetch).getLast?

theorem latestFetch_append (outcomes : List (Except Fault (CycleTrace × Flow)))
    (outcome : Except Fault (CycleTrace × Flow)) :
    latestFetch (outcomes ++ [outcome]) = (reportedFetch outcome).or (latestFetch outcomes) := by
  rw [latestFetch, List.filterMap_append, List.getLast?_append, latestFetch]
  cases found : reportedFetch outcome <;> simp [found]

theorem ends_turn (sound : before.Sound capacity latest) (cycle : Nat) :
    (turn cycle).Ends before
      (fun result after => after.Sound capacity (result.1.fetched.or latest))
      fun fault after => fault.SparesInFlight ∧ after.Sound capacity latest := by
  simp only [turn, ends_bind]
  refine (endures_executeStage before sound).mono ?_ fun _ _ => id
  intro execution first sound
  refine (ends_unlessStalled (fun asleep => ⟨sound, fun _ => asleep⟩)
    fun _ => ends_decode sound).mono ?_ fun _ _ => id
  rintro decoded second ⟨sound, asleep⟩
  have finished {newest : Option Fetched} {third : Processor}
      (sound : third.Sound capacity newest) : third.finish.Sound capacity newest :=
    sound.of_eq rfl rfl rfl rfl
  refine ends_unlessStalled (fun _ => ?_) fun awake => ?_
  · simp only [ends_modify, ends_pure, Option.none_or]
    exact finished sound
  · rw [ends_map]
    refine (ends_fetch sound (asleep awake)).mono ?_ fun _ _ => id
    intro fetched third sound
    simp only [ends_modify, ends_pure, Option.some_or]
    exact finished sound

theorem Sound.next {outcome : Except Fault (CycleTrace × Flow)}
    (sound : before.Sound capacity latest) (ran : before.runCycle = (outcome, after)) :
    after.Sound capacity ((reportedFetch outcome).or latest) ∧
      ∀ fault, outcome = .error fault → fault.SparesInFlight := by
  cases running : before.running with
  | true =>
    rcases runCycle_of_running running with turns | ⟨limit, late, -⟩
    · rw [turns] at ran
      cases outcome with
      | ok result => exact ⟨(ends_turn sound _).1 result after ran, fun _ failed => nomatch failed⟩
      | error fault =>
        rcases (ends_turn sound _).2 fault after ran with ⟨spares, kept⟩
        refine ⟨kept, ?_⟩
        rintro other ⟨⟩
        exact spares
    · rw [late] at ran
      cases ran
      refine ⟨sound, ?_⟩
      rintro fault ⟨⟩
      trivial
  | false =>
    rw [runCycle_of_stopped running] at ran
    cases ran
    exact ⟨sound, fun _ failed => nomatch failed⟩

section

variable {configuration : Configuration} {kind : PredictorKind} {executable : Executable}
  {output : Output} {start reached : Processor}

theorem Loaded.sound (loaded : Loaded configuration kind executable output start) :
    start.Sound configuration.inFlightCapacity none where
  inStep := InFlight.inStep_of_create loaded.inFlight
  slots := loaded.capacity_eq
  named := Predictor.named_of_create loaded.predictor
  handed awake := by
    rw [loaded.stalled] at awake
    cases awake

theorem Loaded.sound_of_callCycles {count : Nat}
    {outcomes : List (Except Fault (CycleTrace × Flow))}
    (loaded : Loaded configuration kind executable output start)
    (called : start.callCycles count = (outcomes, reached)) :
    reached.Sound configuration.inFlightCapacity (latestFetch outcomes) ∧
      ∀ fault, .error fault ∈ outcomes → fault.SparesInFlight := by
  induction count generalizing outcomes reached with
  | zero =>
    cases called
    exact ⟨loaded.sound, fun _ member => nomatch member⟩
  | succ count inductionHypothesis =>
    rcases callCycles_succ.mp called with ⟨earlier, before, outcome, fewer, ran, rfl⟩
    rcases inductionHypothesis fewer with ⟨sound, spared⟩
    rcases sound.next ran with ⟨kept, spares⟩
    refine ⟨latestFetch_append earlier outcome ▸ kept, ?_⟩
    intro fault member
    rcases List.mem_append.mp member with member | member
    · exact spared fault member
    · exact spares fault (List.mem_singleton.mp member).symm

/-- The two buffers move in step, and never overflow.  After any calls, failed
ones included, they hold equally many micro-operations, no more than the smaller
one has room for; the operation code and the mark of speculation are the same in
both at every place; and no call has failed because one of the two was full. -/
theorem buffers_in_step {count : Nat} {outcomes : List (Except Fault (CycleTrace × Flow))}
    (loads : load configuration kind executable output = .ok start)
    (called : start.callCycles count = (outcomes, reached)) :
    reached.inFlight.reorder.size = reached.inFlight.pipeline.size ∧
    reached.inFlight.pipeline.size ≤
      min configuration.reorderCapacity configuration.pipelineCapacity ∧
    (∀ index,
      (reached.inFlight.reorder.get? index).map
          (fun entry => (entry.opcode, entry.speculative)) =
        (reached.inFlight.pipeline.get? index).map fun op => (op.opcode, op.speculative)) ∧
    ∀ name capacity, .error (.buffer (.ringFull name capacity)) ∈ outcomes →
      name ≠ "reorder buffer" ∧ name ≠ "pipeline buffer" := by
  rcases (loaded_of_load loads).sound_of_callCycles called with ⟨sound, spared⟩
  have labels := sound.inStep.labels
  have sizes := congrArg List.length labels
  rw [List.length_map, List.length_map, Ring.length_toList, Ring.length_toList] at sizes
  refine ⟨sizes, ?_, ?_, ?_⟩
  · have slots := sound.slots
    have reorderBound := reached.inFlight.reorder.size_le
    have pipelineBound := reached.inFlight.pipeline.size_le
    rw [InFlight.capacity, Configuration.inFlightCapacity] at slots
    rw [← slots]
    exact Nat.le_min.mpr ⟨sizes ▸ reorderBound, pipelineBound⟩
  · intro index
    have same := congrArg (·[index]?) labels
    simp only [List.getElem?_map, Ring.getElem?_toList] at same
    exact same
  · intro name capacity failed
    rcases spared _ failed with rfl | rfl <;> decide

end

/-- A program with a word that is no instruction. -/
def halting : Executable := .ofParts ["mov rax 4", "dec rbx", "inc rax", "halt"] []

/-- Two calls fail on that word, and yet each of them executes a micro-operation.
The other two of the group in flight are left in both buffers. -/
theorem buffers_in_step_after_faults :
    ∃ start outcomes reached,
      load cramped .gshare halting .accepting = .ok start ∧
      start.callCycles 8 = (outcomes, reached) ∧
      outcomes.countP (fun outcome => !outcome.isOk) = 2 ∧
      reached.inFlight.reorder.size = 2 ∧ reached.inFlight.pipeline.size = 2 ∧
      (reached.inFlight.pipeline.get? 0).map (·.opcode) = some .add ∧
      (reached.inFlight.reorder.get? 0).map (fun entry => (entry.opcode, entry.speculative)) =
        (reached.inFlight.pipeline.get? 0).map fun op => (op.opcode, op.speculative) := by
  have computed : (callLoaded cramped .gshare halting .accepting 8).toOption.any
      (fun ends => decide (ends.1.countP (fun outcome => !outcome.isOk) = 2 ∧
        ends.2.inFlight.pipeline.size = 2 ∧
        (ends.2.inFlight.pipeline.get? 0).map (·.opcode) = some .add)) = true := by
    decide +kernel
  rcases exists_of_callLoaded computed with ⟨start, outcomes, reached, loads, called, ends⟩
  rcases of_decide_eq_true ends with ⟨failed, two, first⟩
  rcases buffers_in_step loads called with ⟨same, -, labels, -⟩
  exact ⟨start, outcomes, reached, loads, called, failed, same.trans two, two, first, labels 0⟩

end Processor
end BranchPipeline
