import BranchPipeline.Proofs.Machine.FailedEffects
import BranchPipeline.Proofs.Pipeline.Draining
import BranchPipeline.Proofs.Pipeline.Expansion
import BranchPipeline.Proofs.Pipeline.Fetching
import BranchPipeline.Proofs.Pipeline.Overflow

namespace BranchPipeline
namespace Processor

open Attempt

/-!
# Where a cycle fails, and what it leaves

A cycle can fail in two of its three stages.  If the execute stage fails, the
sequential machine fails in the same micro-operation and with the same fault,
since what is executed is never on a wrong path; the micro-operation stays in
flight, and the next call tries it again.  Decode fails if what was fetched is
no instruction.  Then the fetched text stays where it is, so that decode fails
in every call, while the execute stage goes on with what is in flight; only a
branch that was predicted badly leads out of this.
-/

variable {before after : Processor} {stock : Stock} {fetched : Fetched} {source : Memory}
  {kind : PredictorKind} {room count : Nat} {origin state : Sequential} {fault : Fault}

/-- What is known of the stalls before any call, also behind one that has
failed. -/
structure Ready (processor : Processor) (stock : Stock) : Prop where
  decodeStalls : processor.stalled.decode = stock.latch.isNone
  executeStalls : processor.stalled.execute = true → stock.packets = []

theorem Stocked.ready (stocked : before.Stocked stock) : before.Ready stock where
  decodeStalls := by rw [stocked.stalled]
  executeStalls asleep := by
    rw [stocked.stalled] at asleep
    exact List.isEmpty_iff.mp asleep

/-- Accesses may be counted, and the stalls and records may change. -/
theorem Led.of_untouched (led : Led source kind room origin count before stock state)
    (untouched : before.machine.Untouched after.machine)
    (inFlight : after.inFlight = before.inFlight) (predictor : after.predictor = before.predictor) :
    Led source kind room origin count after stock state := by
  have agrees := untouched.agrees
  refine ⟨⟨⟨?_, led.fresh, ?_, ?_, ?_, ?_⟩, ⟨?_, led.packets, led.latch, ?_⟩, ?_⟩,
    ⟨agrees.symm.trans led.agrees, led.text, led.running, led.counter, led.rest, led.straight⟩,
    led.ran⟩
  · exact inFlight ▸ led.holds
  · exact inFlight ▸ led.roomy
  · exact predictor ▸ led.asleep
  · exact untouched.registers ▸ led.position
  · intro fetched latch
    rcases led.latched fetched latch with ⟨place, latched⟩
    exact ⟨place, latched.of_agree fun register _ => by rw [untouched.registers]⟩
  · exact led.hosts.of_agrees agrees
  · exact predictor ▸ led.trained
  · exact predictor ▸ led.queued

/-! ## The execute stage -/

/-- Where a micro-operation that is not a branch fails, it fails as such. -/
theorem act_of_fails_execute {op : MicroOp} {entry : ReorderEntry}
    (oldest : before.inFlight.head? = some (op, entry)) (plain : op.opcode ≠ .jump)
    (fails : execute.Fails before fault after) :
    ∃ changed, (Machine.act op).Fails before.machine fault changed ∧
      after = { before with machine := changed } := by
  simp only [execute, fails_bind, fails_get, yields_get, false_or, and_assoc, exists_and_left,
    exists_eq_left, oldest] at fails
  by_cases calls : op.opcode = .systemCall
  · have same : Machine.act op = Machine.systemCall := by rw [Machine.act, calls]
    simp only [calls, fails_bind, fails_modify, fails_pure, and_false, exists_false, or_false,
      systemCall] at fails
    rcases fails with fails | ⟨exits, middle, -, fails⟩
    · rcases fails_onPart.mp fails with ⟨cause, changed, failed, rfl, rfl⟩
      exact ⟨changed, same ▸ failed, rfl⟩
    · cases exits <;> simp at fails
  · have operates : (do
        onMachine (Machine.operate op)
        modify (retire op)
        return { op := some op } : Attempt Processor Fault Execution).Fails before fault after := by
      split at fails
      · contradiction
      · contradiction
      · contradiction
      · exact fails
    have same : Machine.act op = (do Machine.operate op; return false) := by
      unfold Machine.act
      split
      · contradiction
      · rfl
    simp only [fails_bind, fails_modify, fails_pure, and_false, exists_false, or_false] at operates
    rcases fails_onPart.mp operates with ⟨cause, changed, failed, rfl, rfl⟩
    exact ⟨changed, same ▸ fails_bind.mpr (Or.inl failed), rfl⟩

/-- Where the execute stage fails, the sequential machine fails alike, and
nothing is lost. -/
theorem Led.fails_execute (led : Led source kind room origin count before stock state)
    (ordinary : source.Ordinary) (fails : execute.Fails before fault after) :
    origin.run (count + 1) = .error fault ∧
      Led source kind room origin count after stock state ∧
      after.stalled = before.stalled ∧ after.inFlight = before.inFlight := by
  have holds := led.holds
  cases packets : stock.packets with
  | nil =>
    rw [packets] at holds
    simp only [execute, fails_bind, fails_get, yields_get, false_or, and_assoc, exists_and_left,
      exists_eq_left, holds.head?_nil, fails_modify, fails_pure, and_false, exists_false] at fails
  | cons packet later =>
    rw [packets] at holds
    have genuine := led.genuine_head packets
    rcases List.exists_cons_of_ne_nil genuine.pending with ⟨op, rest, front⟩
    have visible := led.visible ordinary packets genuine front
    have apt := genuine.apt front
    have first := led.next_eq led.toTraced ordinary packets genuine front
    have oldest := holds.head?_cons front
    by_cases branches : op.opcode = .jump
    · simp only [execute, fails_bind, fails_get, yields_get, false_or, and_assoc, exists_and_left,
        exists_eq_left, oldest] at fails
      cases later with
      | nil =>
        simp only [Packet.entry, successorOf, branches, if_true, fails_pure] at fails
      | cons next others =>
        simp only [Packet.entry, successorOf, branches, if_true, fails_bind, fails_modify,
          fails_pure, and_false, exists_false, or_false] at fails
        have branching := led.branching packets genuine front branches
        rcases resolve_of_fails_resolveBranch led.trained branching fails with
            ⟨changed, failed, rfl⟩
        have untouched := Machine.failsUntouched_resolve _ failed
        have place := led.counter
        rw [packets] at place
        replace failed : (Machine.resolve op packet.location).Fails _ _ _ := failed
        rw [show packet.location = state.counter from place.symm] at failed
        exact ⟨led.run_succ_of_fails (led.fails_resolve apt first branches failed),
          led.of_untouched untouched rfl rfl, rfl, rfl⟩
    · rcases act_of_fails_execute oldest branches fails with ⟨changed, failed, rfl⟩
      exact ⟨led.run_succ_of_fails (led.fails_act visible apt first branches failed),
        led.of_untouched (Machine.failsUntouched_act failed) rfl rfl, rfl, rfl⟩

/-- Where the stage executes nothing, it may stall itself; otherwise it takes
the oldest micro-operation. -/
theorem Ready.executes {execution : Execution} (ready : before.Ready stock)
    (carries : before.Carries stock)
    (ran : (unlessStalled StageSet.execute {} execute).Yields before execution after) :
    (∃ stalled, after = { before with stalled } ∧ after.Ready stock) ∨
      ∃ packet op rest later, stock.packets = packet :: later ∧ packet.waiting = op :: rest ∧
        Executes before packet op later execution after := by
  rcases yields_unlessStalled.mp ran with ⟨-, -, rfl⟩ | ⟨-, executes⟩
  · exact Or.inl ⟨after.stalled, rfl, ready⟩
  · have holds := carries.holds
    cases packets : stock.packets with
    | nil =>
      rw [packets] at holds
      simp only [execute, yields_bind, yields_get, yields_modify, yields_pure, and_assoc,
        exists_and_left, exists_eq_left, exists_const, holds.head?_nil] at executes
      rcases executes with ⟨_, rfl, -, rfl⟩
      exact Or.inl ⟨_, rfl, ready.decodeStalls, fun _ => packets⟩
    | cons packet later =>
      rw [packets] at holds
      have genuine := holds.genuine packet List.mem_cons_self
      rcases List.exists_cons_of_ne_nil genuine.pending with ⟨op, rest, front⟩
      by_cases followed : op.opcode = .jump → later ≠ []
      · exact Or.inr ⟨packet, op, rest, later, rfl, front,
          execute_cons holds front followed executes⟩
      · -- behind a branch that decode has stopped, there is no successor to come
        rw [Classical.not_imp, Decidable.not_not] at followed
        rcases followed with ⟨branches, rfl⟩
        simp only [execute, yields_bind, yields_get, yields_pure, and_assoc, exists_and_left,
          exists_eq_left, holds.head?_cons front, Packet.entry, successorOf, branches, if_true]
          at executes
        rcases executes with ⟨-, rfl⟩
        exact Or.inl ⟨after.stalled, rfl, ready⟩

/-- A branch that was predicted badly is executed all the same, and makes a new
start wherever it leads. -/
theorem Redirects.led {packet : Packet} {op : MicroOp} {later : List Packet}
    {resolution : Machine.Resolution}
    (redirects : Redirects before packet.location op resolution after)
    (led : Led source kind room origin count before stock state) (ordinary : source.Ordinary)
    (packets : stock.packets = packet :: later) (front : packet.waiting = [op])
    (branches : op.opcode = .jump) :
    ∃ moved, Sequential.step.Yields state (op.marked false) moved ∧
      Led source kind room origin (count + 1) after.finish ⟨[], none, resolution.next⟩
        moved := by
  have branching := led.branching packets (led.genuine_head packets) front branches
  rcases redirects.predictor led.trained branching with ⟨trained, empty⟩
  rcases redirects.resolves with ⟨machine, resolves, agrees⟩
  have hosts := led.hosts.of_agrees ((Machine.untouched_of_resolve resolves).agrees.trans agrees)
  rcases redirects.follows led.toFollows led.toCarries led.toTraced ordinary packets front branches
    with ⟨moved, steps, follows⟩
  refine ⟨moved, steps, ⟨(redirects.stocked led.toCarries).toCarries, ?_, ?_⟩, follows.finish,
    led.run_succ steps⟩
  · exact traced_of_empty hosts trained
  · exact List.sublist_nil.mpr empty

/-- What the execute stage leads to: it goes on with the stock, or the program
has ended, or there is a new start. -/
inductive Proceeds (source : Memory) (kind : PredictorKind) (room : Nat) (origin : Sequential)
    (count : Nat) (before : Processor) (stock : Stock) (state : Sequential)
    (execution : Execution) (after : Processor) : Prop
  | going {packets : List Packet} {more : Nat} {moved : Sequential} (few : more ≤ 1)
      (led : Led source kind room origin (count + more) after { stock with packets } moved)
      (ready : after.Ready { stock with packets })
      (capacity : after.inFlight.capacity = before.inFlight.capacity)
  | ended (stalled : after.stalled = .all) (stopped : after.running = false)
  | redirected {op : MicroOp} {position : UInt64} {moved : Sequential}
      (stalled : after.stalled = .all) (busy : execution.op = some op)
      (steps : Sequential.step.Yields state (op.marked false) moved)
      (led : Led source kind room origin (count + 1) after.finish ⟨[], none, position⟩ moved)
      (stocked : after.finish.Stocked ⟨[], none, position⟩)
      (capacity : after.inFlight.capacity = before.inFlight.capacity)

/-- The execute stage takes the sequential machine with it. -/
theorem Led.executed {execution : Execution}
    (led : Led source kind room origin count before stock state) (ready : before.Ready stock)
    (ordinary : source.Ordinary) (spares : stock.packets ≠ [] → state.storesText = false)
    (ran : (unlessStalled StageSet.execute {} execute).Yields before execution after) :
    Proceeds source kind room origin count before stock state execution after := by
  rcases ready.executes led.toCarries ran with
      ⟨stalled, rfl, ready⟩ | ⟨packet, op, rest, later, packets, front, executes⟩
  · exact .going (Nat.zero_le 1) (led.of_untouched (.refl _) rfl rfl) ready rfl
  · have filled : stock.packets ≠ [] := packets ▸ List.cons_ne_nil packet later
    have kept (same : after.stalled = before.stalled) (packets : List Packet) :
        after.Ready { stock with packets } := by
      refine ⟨same ▸ ready.decodeStalls, ?_⟩
      intro asleep
      rw [same] at asleep
      exact absurd (ready.executeStalls asleep) filled
    have alone (branches : op.opcode = .jump) : packet.waiting = [op] := by
      rw [front, ((led.genuine_head packets).alone_of_jump front branches).1]
    cases executes with
    | acted plain acts =>
      rcases acts.led led ordinary packets front plain (spares filled) with ⟨moved, led⟩
      exact .going (Nat.le_refl 1) led (kept acts.stalled _) acts.toRetires.capacity
    | exited calls exits => exact .ended exits.stalled exits.running
    | confirmed branches behind right confirms =>
      subst behind
      rcases confirms.led led ordinary packets (alone branches) branches right with ⟨moved, led⟩
      exact .going (Nat.le_refl 1) led (kept confirms.stalled _) confirms.toRetires.capacity
    | redirected branches behind wrong redirects =>
      rcases redirects.led led ordinary packets (alone branches) branches with
          ⟨moved, steps, ahead⟩
      exact .redirected redirects.stalled rfl steps ahead (redirects.stocked led.toCarries)
        redirects.toEmpties.capacity

/-! ## The other stages -/

/-- A stalled stage does not fail. -/
theorem fails_unlessStalled {α : Type} {stalled : StageSet → Bool} {idle : α}
    {stage : Attempt Processor Fault α} :
    (unlessStalled stalled idle stage).Fails before fault after ↔
      stalled before.stalled = false ∧ stage.Fails before fault after := by
  simp only [unlessStalled, fails_bind, fails_get, yields_get, false_or, and_assoc,
    exists_and_left, exists_eq_left]
  cases stalled before.stalled <;> simp

section

variable (carries : before.Carries stock) (latch : stock.latch = some fetched)
  (plain : ¬ Starred fetched.token)

include carries latch plain

/-- Decode sees the fetched text and its mark. -/
theorem Carries.splitMark_eq :
    splitMark ((before.machine.registers.text? .cir).getD "") =
      (fetched.token, fetched.speculative) := by
  rw [RegisterFile.text?, (carries.latched fetched latch).2.cir, Option.getD_some]
  exact (splitMark_handedOver fetched).1 fun misleads => plain misleads.2

/-- Decode fails if what was fetched is no instruction. -/
theorem Carries.fails_decode_of_error {cause : DecodeFault}
    (failed : Instruction.expand fetched.token false = .error cause) :
    decode.Fails before (.decode cause) before := by
  simp only [decode, fails_bind, fails_get, yields_get, false_or, and_assoc, exists_and_left,
    exists_eq_left, carries.splitMark_eq latch plain]
  exact Or.inl (fails_ofExcept.mpr
    ⟨cause, Instruction.expand_eq_error_marked failed _, rfl, rfl⟩)

/-- Decode fails for no other reason, and does nothing if it fails. -/
theorem Carries.fails_decode (fails : decode.Fails before fault after) :
    after = before ∧
      ∃ cause, fault = .decode cause ∧ Instruction.expand fetched.token false = .error cause := by
  simp only [decode, fails_bind, fails_get, yields_get, false_or, and_assoc, exists_and_left,
    exists_eq_left, carries.splitMark_eq latch plain] at fails
  rcases fails with fails | ⟨group, middle, expands, fails⟩
  · rcases fails_ofExcept.mp fails with ⟨cause, failed, wrapped, same⟩
    exact ⟨same, cause, wrapped, Instruction.expand_eq_error_marked failed false⟩
  · exfalso
    rcases yields_ofExcept.mp expands with ⟨expanded, rfl⟩
    split at fails
    · simp at fails
    · rename_i enough
      have genuine : Packet.Genuine ⟨fetched.location, fetched.token, _, [], group⟩ :=
        ⟨expanded, List.ne_nil_of_length_pos (Instruction.length_pos expanded)⟩
      rcases carries.holds.exists_issue genuine rfl (Nat.not_lt.mp enough) with
          ⟨inFlight, issues, -, -⟩
      simp only [fails_bind, fails_modify, fails_pure, and_false, exists_false, or_false] at fails
      have latched := (carries.latched fetched latch).2
      have reads := Machine.yields_readRegister.mpr
        ⟨RegisterFile.read_full latched.mar, rfl⟩
      have asks := yields_onMachine.mpr ⟨_, reads, rfl⟩
      rcases fails with fails | ⟨location, second, asked, fails⟩
      · exact asks.not_fails fails
      · rcases asks.unique asked with ⟨rfl, rfl⟩
        rcases fails_onPart.mp fails with ⟨cause, changed, failed, -⟩
        exact issues.not_fails failed

end

/-- Memory still has an instruction to fetch at every location. -/
theorem Led.readable (led : Led source kind room origin count before stock state)
    (readable : source.Readable) : before.machine.memory.Readable := by
  intro location
  rw [← led.agrees.memory, led.text]
  exact readable location

/-- Fetch does not fail, whatever decode has done before it. -/
theorem Led.not_fails_fetch {decoded : Option Decoded} {middle : Processor}
    (led : Led source kind room origin count before stock state) (ready : before.Ready stock)
    (readable : source.Readable) (enough : (before.inFlight.capacity + 1) / 2 < room)
    (decodes : (unlessStalled StageSet.decode none decode).Yields before decoded middle) :
    ¬ (unlessStalled StageSet.fetch none (some <$> fetch)).Fails middle fault after := by
  intro fails
  rcases fails_unlessStalled.mp fails with ⟨awake, fetching⟩
  replace fetching := fails_map.mp fetching
  have few := Nat.lt_of_le_of_lt led.few enough
  have memory := led.readable readable
  have trained := led.trained
  rcases yields_unlessStalled.mp decodes with ⟨-, -, rfl⟩ | ⟨decoding, decodes⟩
  · exact succeeds_fetch led.position led.hosts memory trained few fault after fetching
  · rw [ready.decodeStalls] at decoding
    rcases Option.isSome_iff_exists.mp (Option.isNone_eq_false_iff.mp decoding) with
        ⟨fetched, latch⟩
    rcases decode_cases led.holds (led.latched fetched latch).2 decodes with
        ⟨packet, issues, -⟩ | ⟨defers, -⟩
    · have agrees := issues.untouched.agrees
      have placed : middle.machine.registers.content .rip = .number stock.position := by
        rw [issues.untouched.registers]
        exact led.position
      rw [← agrees.memory] at memory
      rw [← issues.predictor] at few trained
      exact succeeds_fetch placed (led.hosts.of_agrees agrees) memory trained few fault after
        fetching
    · rw [defers.after_eq] at awake
      cases awake

/-! ## The cycle -/

/-- How a cycle fails that begins with `stock`: in the next micro-operation,
which is left to be tried again, or because what was fetched is no instruction. -/
inductive BreaksOff (source : Memory) (kind : PredictorKind) (room : Nat) (origin : Sequential)
    (count : Nat) (before : Processor) (stock : Stock) (state : Sequential) (fault : Fault)
    (after : Processor) : Prop
  | executing (alike : origin.run (count + 1) = .error fault)
      (led : Led source kind room origin count after stock state)
      (stalled : after.stalled = before.stalled) (inFlight : after.inFlight = before.inFlight)
  | decoding {fetched : Fetched} {cause : DecodeFault} {packets : List Packet} {more : Nat}
      {moved : Sequential} (latch : stock.latch = some fetched) (wrapped : fault = .decode cause)
      (failed : Instruction.expand fetched.token false = .error cause) (few : more ≤ 1)
      (led : Led source kind room origin (count + more) after { stock with packets } moved)
      (ready : after.Ready { stock with packets })
      (capacity : after.inFlight.capacity = before.inFlight.capacity)

theorem Led.fails_turn {cycle : Nat}
    (led : Led source kind room origin count before stock state) (ready : before.Ready stock)
    (ordinary : source.Ordinary) (readable : source.Readable)
    (spares : stock.packets ≠ [] → state.storesText = false)
    (enough : (before.inFlight.capacity + 1) / 2 < room)
    (fails : (turn cycle).Fails before fault after) :
    BreaksOff source kind room origin count before stock state fault after := by
  simp only [turn, fails_bind, fails_modify, fails_pure, and_false, exists_false, or_false]
    at fails
  rcases fails with fails | ⟨execution, first, executes, fails⟩
  · rcases led.fails_execute ordinary (fails_unlessStalled.mp fails).2 with
        ⟨alike, led, stalled, inFlight⟩
    exact .executing alike led stalled inFlight
  · -- once the pipeline has been emptied, neither of the other stages runs
    have idle (stalled : first.stalled = .all) : False := by
      rcases fails with fails | ⟨decoded, second, decodes, fails⟩
      · have awake := (fails_unlessStalled.mp fails).1
        rw [stalled] at awake
        cases awake
      · have awake := (fails_unlessStalled.mp fails).1
        rcases yields_unlessStalled.mp decodes with ⟨-, -, rfl⟩ | ⟨other, -⟩
        · rw [stalled] at awake
          cases awake
        · rw [stalled] at other
          cases other
    cases led.executed ready ordinary spares executes with
    | ended stalled => exact (idle stalled).elim
    | redirected stalled => exact (idle stalled).elim
    | going few ahead kept capacity =>
      rcases fails with fails | ⟨decoded, second, decodes, fails⟩
      · rcases fails_unlessStalled.mp fails with ⟨awake, fails⟩
        rw [kept.decodeStalls] at awake
        rcases Option.isSome_iff_exists.mp (Option.isNone_eq_false_iff.mp awake) with
            ⟨fetched, latch⟩
        have plain := ordinary.plain _ _ (led.latch fetched latch)
        rcases ahead.toCarries.fails_decode latch plain fails with ⟨rfl, cause, wrapped, failed⟩
        exact .decoding latch wrapped failed few ahead kept capacity
      · rw [← capacity] at enough
        exact absurd fails (ahead.not_fails_fetch kept readable enough decodes)

/-- Where decode cannot succeed, only a redirect or the exit ends the cycle
well, and a redirect is reported. -/
theorem Led.resumes {trace : CycleTrace} {flow : Flow} {cycle : Nat} {cause : DecodeFault}
    (led : Led source kind room origin count before stock state) (ready : before.Ready stock)
    (ordinary : source.Ordinary) (spares : stock.packets ≠ [] → state.storesText = false)
    (latch : stock.latch = some fetched)
    (failed : Instruction.expand fetched.token false = .error cause)
    (ran : (turn cycle).Yields before (trace, flow) after) (running : after.running = true) :
    ∃ op position moved, trace.executed = some op ∧
      Sequential.step.Yields state (op.marked false) moved ∧
      Led source kind room origin (count + 1) after ⟨[], none, position⟩ moved ∧
      after.Stocked ⟨[], none, position⟩ ∧
      after.inFlight.capacity = before.inFlight.capacity := by
  simp only [turn, yields_bind, yields_modify, yields_pure] at ran
  rcases ran with ⟨execution, first, executes, decoded, second, decodes, result, third, fetches,
    _, _, rfl, same, rfl⟩
  cases same
  cases led.executed ready ordinary spares executes with
  | going few ahead kept capacity =>
    exfalso
    have plain := ordinary.plain _ _ (led.latch fetched latch)
    have stuck := ahead.toCarries.fails_decode_of_error latch plain failed
    rcases yields_unlessStalled.mp decodes with ⟨asleep, -, -⟩ | ⟨-, decodes⟩
    · rw [kept.decodeStalls] at asleep
      rw [show stock.latch = _ from latch] at asleep
      cases asleep
    · exact decodes.not_fails stuck
  | ended stalled stopped =>
    rcases skips_of_all stalled decodes fetches with ⟨-, -, rfl⟩
    rw [finish, stopped] at running
    cases running
  | redirected stalled busy steps ahead stocked capacity =>
    rcases skips_of_all stalled decodes fetches with ⟨-, -, rfl⟩
    exact ⟨_, _, _, busy, steps, ahead, stocked, capacity⟩

end Processor
end BranchPipeline
