import BranchPipeline.Proofs.Pipeline.FailingCycle

namespace BranchPipeline

open Attempt

/-!
# Whose fault it is

Every fault of the execute stage is a fault of the program, for the sequential
machine has it too.  Decode looks further ahead: it fails as soon as it meets a
text that is no instruction, whether or not the program would ever get there.
This is so for any sequence of calls, also if some of them have failed.
-/

/-- What was fetched is no instruction. -/
def Stock.Faulty (stock : Stock) : Prop :=
  ∃ fetched cause, stock.latch = some fetched ∧
    Instruction.expand fetched.token false = .error cause

namespace Processor

variable {before after : Processor} {source : Memory} {kind : PredictorKind}
  {room capacity : Nat} {origin : Sequential} {fault : Fault}
  {outcomes : List (Except Fault (CycleTrace × Flow))}
  {outcome : Except Fault (CycleTrace × Flow)}

/-! ## What the calls have executed -/

/-- The micro-operation that a call reports as executed. -/
def reportedOp (outcome : Except Fault (CycleTrace × Flow)) : Option MicroOp :=
  outcome.toOption.bind (·.1.executed)

/-- The micro-operations that the calls have reported, in order.  A call that
fails reports nothing. -/
def reported (outcomes : List (Except Fault (CycleTrace × Flow))) : List MicroOp :=
  outcomes.filterMap reportedOp

/-- The number of calls that failed. -/
def failures (outcomes : List (Except Fault (CycleTrace × Flow))) : Nat :=
  outcomes.countP fun outcome => !outcome.isOk

/-- A call that fails may have executed a micro-operation nevertheless. -/
def MayHaveExecuted (outcomes : List (Except Fault (CycleTrace × Flow))) (count : Nat) : Prop :=
  (reported outcomes).length ≤ count ∧ count ≤ (reported outcomes).length + failures outcomes

variable {count more : Nat}

theorem reported_append (front later : List (Except Fault (CycleTrace × Flow))) :
    reported (front ++ later) = reported front ++ reported later := List.filterMap_append

theorem failures_append (front later : List (Except Fault (CycleTrace × Flow))) :
    failures (front ++ later) = failures front + failures later := List.countP_append

/-- A call that ends well reports what it has executed. -/
theorem reported_ok (result : CycleTrace × Flow) :
    reported [.ok result] = result.1.executed.toList := by
  cases busy : result.1.executed <;> simp [reported, reportedOp, Except.toOption, busy]

theorem length_reported_ok (result : CycleTrace × Flow) :
    (reported [.ok result]).length = if result.1.executed.isSome then 1 else 0 := by
  rw [reported_ok]
  cases result.1.executed <;> rfl

/-- A call executes one micro-operation at most. -/
theorem MayHaveExecuted.le_length (executed : MayHaveExecuted outcomes count) :
    count ≤ outcomes.length := by
  refine Nat.le_trans executed.2 ?_
  clear executed
  induction outcomes with
  | nil => exact Nat.le_refl 0
  | cons first later inductionHypothesis =>
    have one : (reported [first]).length + failures [first] ≤ 1 := by
      cases first with
      | error fault => exact Nat.le_refl 1
      | ok result =>
        rw [length_reported_ok, show failures [.ok result] = 0 from rfl]
        split <;> decide
    have ops := reported_append [first] later
    have failed := failures_append [first] later
    rw [List.singleton_append] at ops failed
    rw [ops, failed, List.length_append, List.length_cons]
    omega

theorem MayHaveExecuted.failed (executed : MayHaveExecuted outcomes count) (few : more ≤ 1) :
    MayHaveExecuted (outcomes ++ [.error fault]) (count + more) := by
  have none : (reported [.error fault]).length = 0 := rfl
  have one : failures [.error fault] = 1 := rfl
  unfold MayHaveExecuted at executed ⊢
  rw [reported_append, failures_append, List.length_append, none, one]
  omega

theorem MayHaveExecuted.ended {result : CycleTrace × Flow}
    (executed : MayHaveExecuted outcomes count) :
    MayHaveExecuted (outcomes ++ [.ok result])
      (count + if result.1.executed.isSome then 1 else 0) := by
  have none : failures [.ok result] = 0 := rfl
  unfold MayHaveExecuted at executed ⊢
  rw [reported_append, failures_append, List.length_append, length_reported_ok, none]
  omega

/-- The sequential machine has executed these micro-operations.  What the calls
have reported is among them in order, but for its marks of speculation. -/
structure Retraces (origin : Sequential) (outcomes : List (Except Fault (CycleTrace × Flow)))
    (count : Nat) (ops : List MicroOp) (state : Sequential) : Prop where
  counted : MayHaveExecuted outcomes count
  ran : origin.run count = .ok (ops, state)
  inOrder : ((reported outcomes).map (·.marked false)).Sublist ops

variable {ops : List MicroOp} {state : Sequential}

theorem Retraces.failed {others : List MicroOp} {moved : Sequential}
    (retraces : Retraces origin outcomes count ops state) (few : more ≤ 1)
    (goesOn : origin.run (count + more) = .ok (others, moved)) :
    Retraces origin (outcomes ++ [.error fault]) (count + more) others moved where
  counted := retraces.counted.failed few
  ran := goesOn
  inOrder := by
    rw [reported_append, show reported [.error fault] = [] from rfl, List.append_nil]
    exact retraces.inOrder.trans (Sequential.prefix_of_run retraces.ran goesOn).sublist

theorem Retraces.idle {trace : CycleTrace} {flow : Flow}
    (retraces : Retraces origin outcomes count ops state) (idle : trace.executed = none) :
    Retraces origin (outcomes ++ [.ok (trace, flow)]) count ops state where
  counted := by
    have counted : MayHaveExecuted (outcomes ++ [.ok (trace, flow)]) _ := retraces.counted.ended
    rw [idle] at counted
    exact counted
  ran := retraces.ran
  inOrder := by
    have none : reported [.ok (trace, flow)] = [] :=
      (reported_ok _).trans (congrArg Option.toList idle)
    rw [reported_append, none, List.append_nil]
    exact retraces.inOrder

theorem Retraces.busy {trace : CycleTrace} {flow : Flow} {op : MicroOp} {moved : Sequential}
    (retraces : Retraces origin outcomes count ops state) (busy : trace.executed = some op)
    (running : state.running = true)
    (steps : Sequential.step.Yields state (op.marked false) moved) :
    Retraces origin (outcomes ++ [.ok (trace, flow)]) (count + 1) (ops ++ [op.marked false])
      moved where
  counted := by
    have counted : MayHaveExecuted (outcomes ++ [.ok (trace, flow)]) _ := retraces.counted.ended
    rw [busy] at counted
    exact counted
  ran := Sequential.run_succ retraces.ran running steps
  inOrder := by
    have one : reported [.ok (trace, flow)] = [op] :=
      (reported_ok _).trans (congrArg Option.toList busy)
    rw [reported_append, one, List.map_append]
    exact retraces.inOrder.append (List.Sublist.refl _)

/-! ## From call to call -/

/-- What holds before any call of a processor that runs.  The sequential machine
has executed what the calls have, and stands where the processor executes next;
either all is as it is after a cycle that has ended well, or decode cannot go
on. -/
def Poised (source : Memory) (kind : PredictorKind) (room capacity : Nat) (origin : Sequential)
    (outcomes : List (Except Fault (CycleTrace × Flow))) (processor : Processor) : Prop :=
  processor.running = true → ∃ stock count ops state, Retraces origin outcomes count ops state ∧
    Led source kind room origin count processor stock state ∧ processor.Ready stock ∧
    processor.inFlight.capacity = capacity ∧ (processor.Stocked stock ∨ stock.Faulty)

/-- Every call leaves the processor poised for the next one. -/
theorem Poised.next (poised : before.Poised source kind room capacity origin outcomes)
    (ordinary : source.Ordinary) (readable : source.Readable)
    (enough : (capacity + 1) / 2 < room) (keeps : origin.KeepsText (outcomes.length + 1))
    (ran : before.runCycle = (outcome, after)) :
    after.Poised source kind room capacity origin (outcomes ++ [outcome]) := by
  intro still
  cases running : before.running with
  | false =>
    rw [runCycle_of_stopped running] at ran
    cases ran
    rw [running] at still
    cases still
  | true =>
    rcases poised running with ⟨stock, count, ops, state, retraces, led, ready, rfl, mode⟩
    have spares : state.storesText = false :=
      keeps count (Nat.lt_succ_of_le retraces.counted.le_length) ops state retraces.ran
    cases outcome with
    | error fault =>
      rcases runCycle_of_running running with turns | ⟨limit, late, -⟩
      · rw [turns] at ran
        cases led.fails_turn ready ordinary readable (fun _ => spares) enough ran with
        | executing alike led stalled inFlight =>
          refine ⟨stock, count, ops, state, retraces.failed (Nat.zero_le 1) retraces.ran, led, ?_,
            congrArg _ inFlight, ?_⟩
          · exact ⟨stalled ▸ ready.decodeStalls, stalled ▸ ready.executeStalls⟩
          · rcases mode with stocked | faulty
            · exact Or.inl ⟨led.toCarries, stalled.trans stocked.stalled, stocked.fed,
                stocked.followed⟩
            · exact Or.inr faulty
        | decoding latch wrapped failed few led ready capacity =>
          rcases led.ran with ⟨others, goesOn⟩
          exact ⟨_, _, others, _, retraces.failed few goesOn, led, ready, capacity,
            Or.inr ⟨_, _, latch, failed⟩⟩
      · rw [late] at ran
        cases ran
        exact ⟨stock, count, ops, state, retraces.failed (Nat.zero_le 1) retraces.ran, led, ready,
          rfl, mode⟩
    | ok result =>
      rcases result with ⟨trace, flow⟩
      rcases mode with stocked | ⟨fetched, cause, latch, failed⟩
      · rcases stocked.turns running ran with ⟨reached, turns⟩
        have tracked := turns.tracked stocked led.toTracked ordinary.sparesBounds still
        have kept := turns.stocked stocked still
        rcases turns.next stocked led.toTraced led.toFollows ordinary running fun _ => spares with
            ⟨idle, matched⟩ | ⟨op, moved, busy, steps, matched⟩
        · exact ⟨reached, count, ops, state, retraces.idle idle,
            ⟨tracked, matched.follows still, led.ran⟩, kept.ready, turns.capacity, Or.inl kept⟩
        · exact ⟨reached, count + 1, _, moved, retraces.busy busy led.running steps,
            ⟨tracked, matched.follows still, led.run_succ steps⟩, kept.ready, turns.capacity,
            Or.inl kept⟩
      · rcases led.resumes ready ordinary (fun _ => spares) latch failed
          (turn_of_runCycle running ran) still with
            ⟨op, position, moved, busy, steps, ahead, kept, capacity⟩
        exact ⟨_, count + 1, _, moved, retraces.busy busy led.running steps, ahead, kept.ready,
          capacity, Or.inl kept⟩

section

variable {configuration : Configuration} {executable : Executable} {output : Output}
  {start reached : Processor} {calls : Nat}

theorem Loaded.poised_of_callCycles
    (loaded : Loaded configuration kind executable output start) (ordinary : executable.Ordinary)
    (addressable : executable.Addressable) (called : start.callCycles calls = (outcomes, reached))
    (keeps : (Sequential.start start.machine executable.textSection).KeepsText calls) :
    outcomes.length = calls ∧
      reached.Poised start.machine.memory kind configuration.outstandingCapacity
        configuration.inFlightCapacity (.start start.machine executable.textSection) outcomes := by
  induction calls generalizing outcomes reached with
  | zero =>
    cases called
    have retraces : Retraces (.start start.machine executable.textSection) [] 0 [] _ :=
      ⟨⟨Nat.le_refl 0, Nat.le_refl 0⟩, rfl, List.Sublist.refl []⟩
    exact ⟨rfl, fun _ => ⟨_, 0, [], _, retraces, ⟨loaded.tracked, follows_start, [], rfl⟩,
      loaded.stocked.ready, loaded.capacity_eq, Or.inl loaded.stocked⟩⟩
  | succ calls inductionHypothesis =>
    rcases callCycles_succ.mp called with ⟨earlier, before, outcome, shorter, ran, rfl⟩
    rcases inductionHypothesis shorter (keeps.of_le (Nat.le_succ _)) with ⟨length, poised⟩
    have enough := loaded.outstanding_lt
    refine ⟨by rw [List.length_append, length, List.length_singleton], ?_⟩
    exact poised.next (loaded.ordinary ordinary) (loaded.readable addressable) enough
      (length ▸ keeps) ran

/-- A fault of the pipeline is a fault of the program.  After any calls, the
sequential machine has executed what they have, and agrees with the processor;
what the calls have reported is there in order, and at most one more
micro-operation for each call that failed.  If the next call fails, not for
being one too many, then the sequential machine fails alike in its next
micro-operation.  Or else the fault is that of decode, which has met no
instruction at the location that was fetched last; and the sequential machine,
going on with what is in flight, fails alike when it gets there.  It does not
get there only if it stops in a micro-operation that is in flight, or if a
branch in flight leads it elsewhere. -/
theorem faults_as_sequential
    (loads : load configuration kind executable output = .ok start)
    (ordinary : executable.Ordinary) (addressable : executable.Addressable)
    (begins : origin = .start start.machine executable.textSection)
    (called : start.callCycles calls = (outcomes, reached))
    (fails : reached.runCycle = (.error fault, after))
    (early : ∀ limit, fault ≠ .cycleLimit limit)
    (keeps : origin.KeepsText (calls + reached.inFlight.reorder.size)) :
    ∃ count ops state, MayHaveExecuted outcomes count ∧
      origin.run count = .ok (ops, state) ∧ ops.length = count ∧
      ((reported outcomes).map (·.marked false)).Sublist ops ∧
      reached.machine.Agrees state.machine ∧
      (origin.run (count + 1) = .error fault ∨
        ∃ location token cause, reached.machine.registers.content .rip = .number location ∧
          start.machine.memory.tokenAt location = .ok token ∧
          Instruction.expand token false = .error cause ∧ fault = .decode cause ∧
          (origin.Stops (count + reached.inFlight.reorder.size) ∨
            origin.Departs count reached.inFlight.reorder.toList location ∨
            origin.run (count + reached.inFlight.reorder.size + 1) = .error fault)) := by
  subst begins
  have loaded := loaded_of_load loads
  have settled := loaded.ordinary ordinary
  rw [← Ring.length_toList] at keeps ⊢
  rcases loaded.poised_of_callCycles ordinary addressable called
    (keeps.of_le (Nat.le_add_right _ _)) with ⟨length, poised⟩
  have enough := loaded.outstanding_lt
  cases running : reached.running with
  | false =>
    rw [runCycle_of_stopped running] at fails
    cases fails
  | true =>
    rcases poised running with ⟨stock, count, ops, state, retraces, led, ready, slots, -⟩
    have within := retraces.counted.le_length
    rw [length] at within
    have entries := led.holds.reorder
    have turned : (turn reached.cycle).Fails reached fault after := by
      rcases runCycle_of_running running with turns | ⟨limit, late, -⟩
      · rw [turns] at fails
        exact fails
      · rw [late] at fails
        cases fails
        exact absurd rfl (early limit)
    have spares : stock.packets ≠ [] → state.storesText = false := by
      intro filled
      rcases List.exists_cons_of_ne_nil filled with ⟨packet, later, packets⟩
      rcases List.exists_cons_of_ne_nil (led.genuine_head packets).pending with
          ⟨op, rest, front⟩
      refine keeps count ?_ ops state retraces.ran
      rw [entries, packets, entriesBefore_advance front, List.length_cons]
      omega
    refine ⟨count, ops, state, retraces.counted, retraces.ran,
      Sequential.length_of_run retraces.ran led.running, retraces.inOrder, led.agrees, ?_⟩
    cases led.fails_turn ready settled (loaded.readable addressable) spares (slots ▸ enough)
      turned with
    | executing alike => exact Or.inl alike
    | decoding latch wrapped failed one ahead kept capacity =>
      rename_i fetched cause packets more moved
      have found := led.latch fetched latch
      rw [(led.latched fetched latch).1] at found
      refine Or.inr ⟨stock.position, fetched.token, cause, led.position, found, failed, wrapped, ?_⟩
      rcases led.drains settled entries.symm (keeps.of_le (Nat.add_le_add_right within _)) with
          stops | departs | ⟨last, arrived, led⟩
      · exact Or.inl stops
      · exact Or.inr (Or.inl departs)
      · have place : arrived.counter = stock.position := led.counter
        have next := Sequential.next_eq_error led.rest ((led.text _).trans (place ▸ found)) failed
        rw [wrapped]
        exact Or.inr (Or.inr (led.run_succ_of_fails ⟨_, Sequential.fails_step_of_next next⟩))

end

/-- Whether the next cycle fails in this way. -/
def failsWith (processor : Processor) (expected : Fault) : Bool :=
  match processor.runCycle.1 with
  | .error fault => fault == expected
  | .ok _ => false

theorem exists_runCycle_of_failsWith {reached : Processor} {expected : Fault}
    (checked : reached.failsWith expected = true) :
    ∃ after, reached.runCycle = (.error expected, after) := by
  unfold failsWith at checked
  rcases once : reached.runCycle with ⟨fault | result, after⟩
  · rw [once] at checked
    exact ⟨after, by rw [beq_iff_eq.mp checked]⟩
  · rw [once] at checked
    cases checked

/-- Counts down from two in a loop and then stores outside the memory. -/
def overrun : Executable :=
  .ofParts ["mov rcx 2", "dec rcx", "cmp rcx 0", "jne 3", "mov [99] rcx"] []

/-- The loop is left with a store that fails in both machines, though both
branches were predicted badly.  The word `halt` fails both machines too; decode
meets it four micro-operations early, and in the next call once more. -/
theorem faults_as_sequential_overrun_and_halt :
    (∃ start outcomes reached after,
      load { memorySize := 8 } .gshare overrun .accepting = .ok start ∧
      start.callCycles 23 = (outcomes, reached) ∧ reached.record.mispredicted.size = 2 ∧
      reached.runCycle = (.error (.memory (.outOfBounds 99 8)), after) ∧
      (Sequential.start start.machine overrun.textSection).run 18 =
        .error (.memory (.outOfBounds 99 8))) ∧
    ∃ start outcomes reached after,
      load cramped .gshare halting .accepting = .ok start ∧
      start.callCycles 7 = (outcomes, reached) ∧ failures outcomes = 1 ∧
      reached.runCycle = (.error (.decode (.invalidOpcode "halt")), after) ∧
      (Sequential.start start.machine halting.textSection).run 9 =
        .error (.decode (.invalidOpcode "halt")) := by
  constructor
  · have computed : (callLoaded { memorySize := 8 } .gshare overrun .accepting 23).toOption.any
        (fun ends => ends.2.failsWith (.memory (.outOfBounds 99 8)) &&
          decide ((reported ends.1).length = 17 ∧ failures ends.1 = 0 ∧
            ends.2.inFlight.reorder.size = 2 ∧ ends.2.record.mispredicted.size = 2)) = true := by
      decide +kernel
    have checked : (load { memorySize := 8 } .gshare overrun .accepting).toOption.any
        (fun start => (List.range 25).all fun earlier =>
          ((Sequential.start start.machine overrun.textSection).run earlier).toOption.all
            fun reached => !reached.2.storesText) = true := by
      decide +kernel
    rcases exists_of_callLoaded computed with ⟨start, outcomes, reached, loads, called, ends⟩
    rw [Bool.and_eq_true, decide_eq_true_eq] at ends
    rcases ends with ⟨failed, length, none, waiting, missed⟩
    rcases exists_runCycle_of_failsWith failed with ⟨after, fails⟩
    rw [loads] at checked
    have keeps := Sequential.keepsText_of_check checked
    have ordinary : overrun.Ordinary :=
      Executable.ordinary_of_listed (by decide) (by decide +kernel) (by decide +kernel)
    rcases faults_as_sequential loads ordinary (by decide) rfl called fails (fun _ => nofun)
        (waiting ▸ keeps) with ⟨count, ops, state, ⟨least, most⟩, -, -, -, -, ends⟩
    rw [show (reported outcomes).length = 17 from length] at least most
    rw [show failures outcomes = 0 from none] at most
    cases Nat.le_antisymm most least
    rcases ends with alike | ⟨_, _, _, -, -, -, other, -⟩
    · exact ⟨start, outcomes, reached, after, loads, called, missed, fails, alike⟩
    · cases other
  · have computed : (callLoaded cramped .gshare halting .accepting 7).toOption.any
        (fun ends => ends.2.failsWith (.decode (.invalidOpcode "halt")) &&
          decide ((reported ends.1).length = 4 ∧ failures ends.1 = 1 ∧
            ends.2.inFlight.reorder.size = 3 ∧
            ∀ entry ∈ ends.2.inFlight.reorder.toList, entry.opcode ≠ .jump)) = true := by
      decide +kernel
    have checked : (load cramped .gshare halting .accepting).toOption.any
        (fun start => (List.range 10).all fun earlier =>
          ((Sequential.start start.machine halting.textSection).run earlier).toOption.all
            fun reached => !reached.2.storesText) = true := by
      decide +kernel
    have goes : (load cramped .gshare halting .accepting).toOption.any
        (fun start => ((Sequential.start start.machine halting.textSection).run 8).toOption.any
          (·.2.running)) = true := by
      decide +kernel
    rcases exists_of_callLoaded computed with ⟨start, outcomes, reached, loads, called, ends⟩
    rw [Bool.and_eq_true, decide_eq_true_eq] at ends
    rcases ends with ⟨failed, length, one, waiting, plain⟩
    rcases exists_runCycle_of_failsWith failed with ⟨after, fails⟩
    rw [loads] at checked goes
    have keeps := Sequential.keepsText_of_check checked
    have going := Sequential.not_stops_of_check goes
    have ordinary : halting.Ordinary :=
      Executable.ordinary_of_listed (by decide) (by decide +kernel) (by decide +kernel)
    rcases faults_as_sequential loads ordinary (by decide) rfl called fails (fun _ => nofun)
        (waiting ▸ keeps) with ⟨count, ops, state, ⟨-, most⟩, -, -, -, -, ends⟩
    rw [show (reported outcomes).length = 4 from length, show failures outcomes = 1 from one]
      at most
    rw [waiting] at ends
    rcases ends with alike | ⟨_, _, _, -, -, -, -, stops | departs | alike⟩
    · exact absurd ((Sequential.stops_of_error alike).of_le (by omega)) going
    · exact absurd (stops.of_le (by omega)) going
    · exact absurd departs (Sequential.not_departs plain)
    · exact ⟨start, outcomes, reached, after, loads, called, one, fails,
        Sequential.run_of_error alike (by omega)⟩

/-- A branch over a word that is no instruction. -/
def skipping : Executable := .ofParts ["jmp 4", "bogus", "mov rax 60", "syscall"] []

/-- Decode fails at a word that the program jumps over.  The sequential machine
never fails, however long it runs. -/
theorem decode_fails_off_path :
    ∃ start traces reached after,
      load { memorySize := 8 } .alwaysNotTaken skipping .accepting = .ok start ∧
      skipping.Ordinary ∧ skipping.Addressable ∧ start.runCycles 2 = .ok (traces, reached) ∧
      reached.runCycle = (.error (.decode (.invalidOpcode "bogus")), after) ∧
      (Sequential.start start.machine skipping.textSection).KeepsText 5 ∧
      (∃ ops final, (Sequential.start start.machine skipping.textSection).run 5 =
        .ok (ops, final) ∧ final.running = false) ∧
      ∀ other fault, (Sequential.start start.machine skipping.textSection).run other ≠
        .error fault := by
  have computed : (runLoaded { memorySize := 8 } .alwaysNotTaken skipping .accepting 2).toOption.any
      (fun ends => ends.2.failsWith (.decode (.invalidOpcode "bogus"))) = true := by
    decide +kernel
  have checked : (load { memorySize := 8 } .alwaysNotTaken skipping .accepting).toOption.any
      (fun start => (List.range 5).all fun earlier =>
        ((Sequential.start start.machine skipping.textSection).run earlier).toOption.all
          fun reached => !reached.2.storesText) = true := by
    decide +kernel
  have stops : (load { memorySize := 8 } .alwaysNotTaken skipping .accepting).toOption.any
      (fun start => ((Sequential.start start.machine skipping.textSection).run 5).toOption.any
        (!·.2.running)) = true := by
    decide +kernel
  rcases exists_of_runLoaded computed with ⟨start, traces, reached, loads, ran, failed⟩
  rcases exists_runCycle_of_failsWith failed with ⟨after, fails⟩
  rw [loads] at checked stops
  have keeps := Sequential.keepsText_of_check checked
  have ordinary : skipping.Ordinary :=
    Executable.ordinary_of_listed (by decide) (by decide +kernel) (by decide +kernel)
  rcases Sequential.exists_stopped_of_check stops with ⟨ops, final, ended, stopped⟩
  exact ⟨start, traces, reached, after, loads, ordinary, by decide, ran, fails, keeps,
    ⟨ops, final, ended, stopped⟩, Sequential.run_ne_error_of_stopped ended stopped⟩

end Processor
end BranchPipeline
