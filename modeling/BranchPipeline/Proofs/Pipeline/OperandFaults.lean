import BranchPipeline.Proofs.Machine.Numeric
import BranchPipeline.Proofs.Pipeline.FaultRefinement

namespace BranchPipeline

open Attempt

/-!
# Faults that no program can cause

Two kinds of fault speak of the processor and not of the program: a
micro-operation without anything that it could act on, and an instruction's text
where a number should be.  The first cannot arise, because every micro-operation
in flight comes from an instruction.  The second can arise in one way only, by a
program that reads the text through an operand of its own.

Both rest on what a cycle leaves behind however it ends, so they hold after
failed calls too.
-/

namespace InFlight

/-- Issuing a group puts nothing else into the pipeline buffer, even if it breaks
off half-way. -/
theorem keeps_issue {allowed : MicroOp → Prop} {group : List MicroOp}
    (members : ∀ op ∈ group, allowed op) (location : UInt64) :
    (issue group location).Keeps (fun inFlight => ∀ op ∈ inFlight.pipeline.toList, allowed op)
      fun _ => True := by
  unfold issue
  cases group with
  | nil => exact keeps_pure
  | cons first rest =>
    refine Keeps.bind (keeps_modify fun inFlight holds => ?_) fun _ => ?_
    · rw [(pipeline_annotate inFlight _).1]
      exact holds
    · refine keeps_forM fun op member => keeps_get_bind fun inFlight holds => ?_
      simp only [ends_bind, ends_ofExcept, ends_set]
      refine ⟨fun reorder _ => ⟨fun pipeline added => ?_, fun _ _ => ⟨trivial, holds⟩⟩,
        fun _ _ => ⟨trivial, holds⟩⟩
      intro other listed
      rw [Ring.toList_of_add added, List.mem_append, List.mem_singleton] at listed
      rcases listed with listed | rfl
      · exact holds other listed
      · exact members other member

end InFlight

namespace Processor

variable {α : Type} {before after : Processor} {allowed : Fault → Prop}

/-- What holds after any calls, failed ones included: every register that a stage
reads as a number holds one, and every micro-operation in flight has something
to act on. -/
structure Equipped (processor : Processor) : Prop where
  numeric : processor.machine.registers.Numeric
  apt : ∀ op ∈ processor.inFlight.pipeline.toList, op.Apt

/-- However the operation ends, the processor stays equipped, and the fault is
plain. -/
abbrev Harmless (operation : Attempt Processor Fault α) : Prop :=
  operation.Keeps Equipped Fault.Plain

/-! ## One stage -/

/-- An operation of the machine that breaks off has only read. -/
theorem Equipped.ends_onMachine (equipped : before.Equipped)
    {operation : Attempt Machine Fault α}
    (fails : operation.FailsOnly before.machine allowed)
    (untouched : Machine.FailsUntouched operation)
    (numeric : ∀ value machine, operation.Yields before.machine value machine →
      machine.registers.Numeric) :
    (onMachine operation).Ends before (fun _ after => after.Equipped)
      fun fault after => allowed fault ∧ after.Equipped := by
  refine ends_onPart.mpr ⟨?_, ?_⟩
  · intro value machine ends
    exact ⟨numeric value machine ends, equipped.apt⟩
  · intro fault machine failed
    refine ⟨fails fault machine failed, ?_, equipped.apt⟩
    show machine.registers.Numeric
    rw [(untouched failed).registers]
    exact equipped.numeric

theorem harmless_onPredictor (operation : Attempt Predictor BufferFault α) :
    Harmless (onPredictor operation) :=
  fun _ equipped => ends_onPart.mpr
    ⟨fun _ _ _ => ⟨equipped.numeric, equipped.apt⟩,
      fun _ _ _ => ⟨trivial, equipped.numeric, equipped.apt⟩⟩

theorem harmless_flush : Harmless (modify flush) := by
  refine keeps_modify fun before equipped => ⟨?_, ?_⟩
  · exact ((equipped.numeric.write _ _).writeText rfl _).writeText rfl _
  · intro op member
    rw [flush, InFlight.flush, Ring.toList_flush] at member
    cases member

theorem harmless_retire (op : MicroOp) : Harmless (modify (retire op)) := by
  refine keeps_modify fun before equipped => ⟨equipped.numeric, ?_⟩
  intro other member
  rw [retire, InFlight.retire, Ring.toList_remove] at member
  exact equipped.apt other (List.mem_of_mem_tail member)

/-- What else a stage notes down concerns neither registers nor buffers. -/
theorem harmless_note {change : Processor → Processor}
    (machine : ∀ processor, (change processor).machine = processor.machine)
    (inFlight : ∀ processor, (change processor).inFlight = processor.inFlight) :
    Harmless (modify change) :=
  keeps_modify fun before equipped =>
    ⟨machine before ▸ equipped.numeric, inFlight before ▸ equipped.apt⟩

theorem harmless_resolveBranch {op : MicroOp}
    (conditional : ∃ condition, op.operand = some (.condition condition))
    (entry : ReorderEntry) (successor : Successor) :
    Harmless (resolveBranch op entry successor) := by
  refine Keeps.bind (fun before equipped => ?_) fun resolution => ?_
  · refine equipped.ends_onMachine
      (Machine.failsOnly_resolve_plain equipped.numeric conditional _)
      (Machine.failsUntouched_resolve _) fun value machine ends => ?_
    exact (Machine.untouched_of_resolve ends).numeric equipped.numeric
  refine (harmless_onPredictor _).bind fun _ => ?_
  have noted {change : Processor → Processor} {outcome : BranchOutcome}
      (harmless : Harmless (modify change)) : Harmless (do modify change; return outcome) :=
    harmless.bind fun _ => keeps_pure
  dsimp only
  split
  · refine harmless_flush.bind fun _ => ?_
    refine Keeps.bind (keeps_modify fun before equipped => ?_) fun _ => ?_
    · exact ⟨equipped.numeric.write _ _, equipped.apt⟩
    · exact (harmless_onPredictor _).bind fun _ => noted (harmless_note (fun _ => rfl) fun _ => rfl)
  · exact noted (harmless_note (fun _ => rfl) fun _ => rfl)

theorem harmless_systemCall : Harmless systemCall := by
  refine Keeps.bind (fun before equipped => ?_) fun exits => ?_
  · refine equipped.ends_onMachine (Machine.failsOnly_systemCall_plain equipped.numeric)
      Machine.failsUntouched_systemCall fun value machine ends => ?_
    exact (Machine.untouched_of_systemCall ends).1 ▸ equipped.numeric
  · split
    · refine Keeps.bind (harmless_note ?_ ?_) fun _ => harmless_flush.bind fun _ => keeps_pure
      all_goals exact fun _ => rfl
    · exact keeps_pure

/-- The fault is plain or due to the oldest micro-operation, which is executed in
this cycle. -/
def Explains (processor : Processor) (fault : Fault) : Prop :=
  fault.Plain ∨ processor.stalled.execute = false ∧
    ∃ op entry, processor.inFlight.head? = some (op, entry) ∧
      fault.DueTo op processor.machine.registers

/-- The execute stage can only fail over its own micro-operation. -/
theorem Equipped.ends_execute (equipped : before.Equipped)
    (awake : before.stalled.execute = false) :
    execute.Ends before (fun _ after => after.Equipped)
      fun fault after => before.Explains fault ∧ after.Equipped := by
  have plain {operation : Attempt Processor Fault Execution} (harmless : Harmless operation) :
      operation.Ends before (fun _ after => after.Equipped)
        fun fault after => before.Explains fault ∧ after.Equipped :=
    (harmless before equipped).mono (fun _ _ => id)
      fun fault after ⟨plain, kept⟩ => ⟨Or.inl plain, kept⟩
  simp only [execute, ends_bind, ends_get]
  split
  · refine plain (Keeps.bind (harmless_note ?_ ?_) fun _ => keeps_pure)
    all_goals exact fun _ => rfl
  · rename_i op entry head
    have retires {execution : Execution} :
        Harmless (do modify (retire op); return execution) :=
      (harmless_retire op).bind fun _ => keeps_pure
    have apt := equipped.apt op (InFlight.mem_of_head? head)
    split
    · exact plain keeps_pure
    · rename_i branches _
      rw [MicroOp.Apt, branches] at apt
      exact plain ((harmless_resolveBranch apt _ _).bind fun _ => retires)
    · exact plain (harmless_systemCall.bind fun _ => retires)
    · rw [ends_bind]
      refine (equipped.ends_onMachine (Machine.failsOnly_operate_dueTo equipped.numeric apt)
        Machine.failsUntouched_operate
        fun value machine ends => Machine.numeric_of_operate equipped.numeric ends).mono ?_ ?_
      · intro _ middle kept
        refine (retires middle kept).mono (fun _ _ => id) ?_
        exact fun fault after ⟨plain, kept⟩ => ⟨Or.inl plain, kept⟩
      · rintro fault middle ⟨due, kept⟩
        exact ⟨Or.inr ⟨awake, op, entry, head, due⟩, kept⟩

/-- Decode can only fail over the text that it expands. -/
theorem harmless_decode : Harmless decode := by
  refine keeps_get_bind fun before equipped => ?_
  simp only [ends_bind, ends_ofExcept]
  refine ⟨fun group expanded => ?_, fun _ _ => ⟨trivial, equipped⟩⟩
  split
  · simp only [ends_bind, ends_set, ends_pure]
    exact ⟨equipped.numeric, equipped.apt⟩
  · rw [ends_bind]
    refine (equipped.ends_onMachine
      (Machine.failsOnly_readRegister_of_numeric equipped.numeric rfl)
      (Machine.failsUntouched_readRegister _)
      fun value machine ends =>
        (Machine.untouched_of_readRegister ends).numeric equipped.numeric).mono ?_ fun _ _ => id
    intro location middle equipped
    simp only [ends_bind, onInFlight, ends_onPart]
    have members : ∀ op ∈ group, op.Apt := fun op => Instruction.apt_of_mem expanded
    refine (InFlight.keeps_issue members location _ equipped.apt).mono ?_ ?_
    · intro _ inFlight apt
      simp only [ends_modify, ends_pure]
      exact ⟨equipped.numeric, apt⟩
    · rintro fault inFlight ⟨-, apt⟩
      exact ⟨trivial, equipped.numeric, apt⟩

/-- Looking up an instruction needs the bounds of the text section only. -/
theorem ends_instructionAt {machine : Machine} (numeric : machine.registers.Numeric)
    (location : UInt64) :
    (instructionAt location).Ends machine (fun _ after => after.registers.Numeric)
      fun fault after => fault.Plain ∧ after.registers.Numeric := by
  have reads (ref : RegisterRef) (plain : ref.register.latchesText = false) :
      (Machine.readRegister ref).Keeps (fun machine => machine.registers.Numeric) Fault.Plain :=
    fun machine numeric => ⟨fun value after ends =>
      (Machine.untouched_of_readRegister ends).numeric numeric,
      fun fault after fails => ⟨Machine.failsOnly_readRegister_of_numeric numeric plain _ _ fails,
        (Machine.failsUntouched_readRegister ref fails).numeric numeric⟩⟩
  refine (reads _ rfl).bind (fun textStart => ?_) machine numeric
  refine (reads _ rfl).bind fun dataStart => ?_
  split
  · refine Keeps.bind (keeps_ofExcept fun _ _ => trivial) fun address machine numeric => ?_
    refine ⟨fun token after ends => ?_, fun fault after fails => ⟨?_, ?_⟩⟩
    · rcases Machine.yields_readToken.mp ends with ⟨cell, reads, -⟩
      exact (Machine.untouched_of_readCell reads).numeric numeric
    · exact Machine.failsOnly_readToken_plain address fault after fails
    · rcases fails_bind.mp fails with fails | ⟨cell, middle, reads, fails⟩
      · exact (Machine.failsUntouched_readCell address fails).numeric numeric
      · rcases fails_ofExcept.mp fails with ⟨cause, -, -, rfl⟩
        exact (Machine.untouched_of_readCell reads).numeric numeric
  · exact keeps_pure

/-- Fetch reads and writes the registers of the pipeline as it finds them. -/
theorem harmless_fetch : Harmless fetch := by
  refine Keeps.bind (fun before equipped => ?_) fun current => ?_
  · exact equipped.ends_onMachine
      (Machine.failsOnly_readRegister_of_numeric equipped.numeric rfl)
      (Machine.failsUntouched_readRegister _)
      fun value machine ends =>
        (Machine.untouched_of_readRegister ends).numeric equipped.numeric
  refine keeps_get_bind fun before equipped => ?_
  refine (harmless_onPredictor _).bind (fun location => ?_) before equipped
  refine Keeps.bind (fun before equipped => ?_) fun token => ?_
  · simp only [onMachine, ends_onPart, ends_bind, ends_modify, ends_pure]
    have moved := (equipped.numeric.write (.full .rip) location).write (.full .mar) location
    refine (ends_instructionAt moved location).mono ?_ ?_
    · intro token machine numeric
      exact ⟨(numeric.writeText rfl _).writeText rfl _, equipped.apt⟩
    · rintro fault machine ⟨plain, numeric⟩
      exact ⟨plain, numeric, equipped.apt⟩
  · refine Keeps.bind (harmless_note ?_ ?_) fun _ => keeps_pure
    all_goals exact fun _ => rfl

/-! ## One cycle -/

/-- Whatever goes wrong in a cycle, the cycle finds it explained where it begins. -/
theorem Equipped.ends_turn (equipped : before.Equipped) (cycle : Nat) :
    (turn cycle).Ends before (fun _ after => after.Equipped)
      fun fault after => before.Explains fault ∧ after.Equipped := by
  have later {β : Type} {operation : Attempt Processor Fault β} (harmless : Harmless operation)
      {middle : Processor} (equipped : middle.Equipped) :
      operation.Ends middle (fun _ after => after.Equipped)
        fun fault after => before.Explains fault ∧ after.Equipped :=
    (harmless middle equipped).mono (fun _ _ => id)
      fun fault after ⟨plain, kept⟩ => ⟨Or.inl plain, kept⟩
  simp only [turn, ends_bind]
  refine (ends_unlessStalled (fun _ => equipped) equipped.ends_execute).mono ?_ fun _ _ => id
  intro execution first equipped
  refine (ends_unlessStalled (fun _ => equipped)
    fun _ => later harmless_decode equipped).mono ?_ fun _ _ => id
  intro decoded second equipped
  have fetches : (some <$> fetch).Ends second (fun _ after => after.Equipped)
      fun fault after => before.Explains fault ∧ after.Equipped := by
    rw [ends_map]
    exact later harmless_fetch equipped
  refine (ends_unlessStalled (fun _ => equipped) fun _ => fetches).mono ?_ fun _ _ => id
  intro fetched third equipped
  simp only [ends_modify, ends_pure]
  exact ⟨equipped.numeric, equipped.apt⟩

theorem Equipped.next {outcome : Except Fault (CycleTrace × Flow)} (equipped : before.Equipped)
    (ran : before.runCycle = (outcome, after)) :
    after.Equipped ∧ ∀ fault, outcome = .error fault → before.Explains fault := by
  cases running : before.running with
  | true =>
    rcases runCycle_of_running running with turns | ⟨limit, late, -⟩
    · rw [turns] at ran
      cases outcome with
      | ok result =>
        exact ⟨(equipped.ends_turn _).1 result after ran, fun _ failed => nomatch failed⟩
      | error fault =>
        rcases (equipped.ends_turn _).2 fault after ran with ⟨explained, kept⟩
        refine ⟨kept, ?_⟩
        rintro other ⟨⟩
        exact explained
    · rw [late] at ran
      cases ran
      refine ⟨equipped, ?_⟩
      rintro fault ⟨⟩
      exact Or.inl trivial
  | false =>
    rw [runCycle_of_stopped running] at ran
    cases ran
    exact ⟨equipped, fun _ failed => nomatch failed⟩

/-! ## All calls -/

section

variable {configuration : Configuration} {kind : PredictorKind} {executable : Executable}
  {output : Output} {start reached : Processor}

theorem Loaded.equipped (loaded : Loaded configuration kind executable output start) :
    start.Equipped := by
  rcases loaded.machine with ⟨memory, -, machine⟩
  refine ⟨?_, fun op member => ?_⟩
  · rw [machine]
    exact ((RegisterFile.numeric_default.write _ _).write _ _).write _ _
  · rw [(InFlight.holds_of_create loaded.inFlight).1.pipeline] at member
    cases member

theorem Loaded.equipped_of_callCycles {count : Nat}
    {outcomes : List (Except Fault (CycleTrace × Flow))}
    (loaded : Loaded configuration kind executable output start)
    (called : start.callCycles count = (outcomes, reached)) : reached.Equipped := by
  induction count generalizing outcomes reached with
  | zero =>
    cases called
    exact loaded.equipped
  | succ count inductionHypothesis =>
    rcases callCycles_succ.mp called with ⟨earlier, before, outcome, fewer, ran, rfl⟩
    exact ((inductionHypothesis fewer).next ran).1

/-- What is fetched, decoded and executed never lets the processor down.  After
any calls, failed ones included, the next call does not fail over a
micro-operation that has nothing to act on.  If it fails over an instruction's
text that was read as a number, then the text is in `mbr` or in `cir`, and the
micro-operation at the head of the buffers, which is being executed, reads that
register itself: as its operand or, when an address could not be found, as an
operand of its address expression. -/
theorem operands_in_order {count : Nat} {outcomes : List (Except Fault (CycleTrace × Flow))}
    {fault : Fault} (loads : load configuration kind executable output = .ok start)
    (called : start.callCycles count = (outcomes, reached))
    (fails : reached.runCycle = (.error fault, after)) :
    (∀ op, fault ≠ .unexpectedOperand op) ∧
    (∀ register, fault = .register (.notNumeric register) →
      (register = .mbr ∨ register = .cir) ∧ reached.stalled.execute = false ∧
        ∃ op entry width, reached.inFlight.head? = some (op, entry) ∧ op.opcode ≠ .store ∧
          op.operand = some (.register ⟨register, width⟩)) ∧
    ∀ expression register, fault = .address ⟨expression, .register (.notNumeric register)⟩ →
      (register = .mbr ∨ register = .cir) ∧ reached.stalled.execute = false ∧
        ∃ op entry, reached.inFlight.head? = some (op, entry) ∧
          op.operand = some (.memory expression) ∧
          register ∈ AddressExpression.consulted reached.machine.registers expression := by
  have equipped := (loaded_of_load loads).equipped_of_callCycles called
  have explained := (equipped.next fails).2 fault rfl
  refine ⟨?_, ?_, ?_⟩
  · rintro op rfl
    rcases explained with plain | ⟨-, _, _, -, due⟩
    · exact plain
    · exact due
  · rintro register rfl
    rcases explained with plain | ⟨awake, op, entry, head, latches, reads, width, named⟩
    · exact plain.elim
    · exact ⟨Register.latchesText_iff.mp latches, awake, op, entry, width, head, reads, named⟩
  · rintro expression register rfl
    rcases explained with plain | ⟨awake, op, entry, head, latches, named, member⟩
    · exact plain.elim
    · exact ⟨Register.latchesText_iff.mp latches, awake, op, entry, head, named, member⟩

end

/-- A program that compares with the instruction that was fetched last. -/
def peeking : Executable := .ofParts ["mov rbx 1", "cmp cir rbx"] []

/-- A program that addresses memory by the instruction that was fetched last. -/
def wandering : Executable := .ofParts ["mov rbx 1", "mov [rbx+mbr] rbx"] []

/-- The second micro-operation of `cmp cir rbx` reads `cir`, and that of the store
reads `mbr` in its address. -/
theorem operands_in_order_peeking_and_wandering :
    (∃ start outcomes reached after op entry width,
      load cramped .gshare peeking .accepting = .ok start ∧
      start.callCycles 5 = (outcomes, reached) ∧
      reached.runCycle = (.error (.register (.notNumeric .cir)), after) ∧
      reached.inFlight.head? = some (op, entry) ∧ op.opcode ≠ .store ∧
      op.operand = some (.register ⟨.cir, width⟩)) ∧
    ∃ start outcomes reached after op entry,
      load cramped .gshare wandering .accepting = .ok start ∧
      start.callCycles 5 = (outcomes, reached) ∧
      reached.runCycle =
        (.error (.address ⟨"rbx+mbr", .register (.notNumeric .mbr)⟩), after) ∧
      reached.inFlight.head? = some (op, entry) ∧
      op.operand = some (.memory "rbx+mbr") ∧
      .mbr ∈ AddressExpression.consulted reached.machine.registers "rbx+mbr" := by
  constructor
  · have computed : (callLoaded cramped .gshare peeking .accepting 5).toOption.any
        (fun ends => ends.2.failsWith (.register (.notNumeric .cir))) = true := by
      decide +kernel
    rcases exists_of_callLoaded computed with ⟨start, outcomes, reached, loads, called, failed⟩
    rcases exists_runCycle_of_failsWith failed with ⟨after, fails⟩
    rcases operands_in_order loads called fails with ⟨-, registers, -⟩
    rcases registers .cir rfl with ⟨-, -, op, entry, width, head, reads, named⟩
    exact ⟨start, outcomes, reached, after, op, entry, width, loads, called, fails, head, reads,
      named⟩
  · have computed : (callLoaded cramped .gshare wandering .accepting 5).toOption.any
        (fun ends => ends.2.failsWith
          (.address ⟨"rbx+mbr", .register (.notNumeric .mbr)⟩)) = true := by
      decide +kernel
    rcases exists_of_callLoaded computed with ⟨start, outcomes, reached, loads, called, failed⟩
    rcases exists_runCycle_of_failsWith failed with ⟨after, fails⟩
    rcases operands_in_order loads called fails with ⟨-, -, addresses⟩
    rcases addresses _ .mbr rfl with ⟨-, -, op, entry, head, named, member⟩
    exact ⟨start, outcomes, reached, after, op, entry, loads, called, fails, head, named, member⟩

end Processor
end BranchPipeline
