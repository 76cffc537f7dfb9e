import BranchPipeline.Proofs.Pipeline.Stages

namespace BranchPipeline

open Attempt

/-!
# What a cycle does

Between two cycles a running processor is in one of three conditions.  After a
redirect nothing is in flight and nothing has been fetched; one cycle later an
instruction has been fetched, and another cycle later one is in flight.  From
then on every cycle executes.  `Stocked` says this, together with what it rests
on: nobody waits without need, and a branch is never alone in the buffers, so
its successor is known when it is executed.

`Turns` lists all that a cycle can do from there.
-/

/-- What the pipeline holds: the packets in flight, the instruction that has
been fetched, and the address from which fetch goes on. -/
structure Stock where
  packets : List Packet
  latch : Option Fetched
  position : UInt64

/-- All micro-operations in flight. -/
def Stock.waiting (stock : Stock) : List MicroOp := stock.packets.flatMap Packet.waiting

namespace Processor

/-- The processor holds this stock; of its packets only the oldest may have
been executed in part. -/
structure Carries (processor : Processor) (stock : Stock) : Prop where
  holds : processor.inFlight.Holds stock.packets
  fresh : ∀ packet ∈ stock.packets.tail, packet.executed = []
  roomy : maxGroupLength < processor.inFlight.capacity
  asleep : processor.predictor.stalled = stock.latch.isNone
  position : processor.machine.registers.content .rip = .number stock.position
  latched : ∀ fetched, stock.latch = some fetched →
    fetched.location = stock.position ∧ Latched processor.machine fetched

/-- What holds between two cycles of a running processor. -/
structure Stocked (processor : Processor) (stock : Stock) : Prop
    extends Carries processor stock where
  stalled : processor.stalled = ⟨false, stock.latch.isNone, stock.packets.isEmpty⟩
  fed : stock.packets ≠ [] → stock.latch ≠ none
  followed : ∀ op, stock.waiting = [op] → op.opcode ≠ .jump

variable {before after : Processor} {stock reached : Stock} {fetched : Fetched}

/-- The end of a cycle changes nothing that is carried. -/
theorem Carries.finish (carries : before.Carries stock) : before.finish.Carries stock :=
  ⟨carries.holds, carries.fresh, carries.roomy, carries.asleep, carries.position,
    carries.latched⟩

/-! ## Decode and fetch -/

/-- What decode and fetch do together: they pass the fetched instruction on and
fetch the next one, or both wait. -/
inductive Supplies (before : Processor) (stock : Stock) (fetched : Fetched) :
    Option Decoded → Option Fetched → Processor → Stock → Prop
  | issued {packet : Packet} {next : Fetched} {middle after : Processor}
      (issues : Issues before stock.packets fetched packet middle)
      (fetches : Fetches middle stock.position next after) :
      Supplies before stock fetched (some ⟨packet.location, packet.token, packet.waiting⟩)
        (some next) after ⟨stock.packets ++ [packet], some next, next.location⟩
  | deferred {after : Processor} (defers : Defers before stock.packets after) :
      Supplies before stock fetched none none after stock

/-- Registers that only the pipeline writes keep what they hold. -/
theorem Latched.of_agree {first second : Machine} (latched : Latched first fetched)
    (same : ∀ register, register.isInternal = true →
      second.registers.content register = first.registers.content register) :
    Latched second fetched where
  rip := (same .rip rfl).trans latched.rip
  mar := (same .mar rfl).trans latched.mar
  cir := (same .cir rfl).trans latched.cir

theorem Fetches.carries {position : UInt64} {middle : Processor}
    (fetches : Fetches middle position fetched after) {packets : List Packet}
    (holds : middle.inFlight.Holds packets) (fresh : ∀ packet ∈ packets.tail, packet.executed = [])
    (roomy : maxGroupLength < middle.inFlight.capacity) :
    after.Carries ⟨packets, some fetched, fetched.location⟩ where
  holds := fetches.inFlight ▸ holds
  fresh := fresh
  roomy := fetches.inFlight ▸ roomy
  asleep := by
    rcases Predictor.yields_predict.mp fetches.predicts with ⟨-, -, woken⟩ | ⟨awake, _, -, same⟩
    · rw [woken]
      rfl
    · rw [same]
      exact awake
  position := fetches.latched.rip
  latched := by
    intro other same
    cases same
    exact ⟨rfl, fetches.latched⟩

/-- A packet that is put behind others does not stand first, or is fresh. -/
theorem fresh_append {packets : List Packet} {packet : Packet}
    (fresh : ∀ packet ∈ packets.tail, packet.executed = []) (new : packet.executed = []) :
    ∀ other ∈ (packets ++ [packet]).tail, other.executed = [] := by
  intro other member
  cases packets with
  | nil => cases member
  | cons first later =>
    rcases List.mem_append.mp member with member | member
    · exact fresh other member
    · rw [List.mem_singleton.mp member]
      exact new

/-- Unless decode is stalled, the two stages supply the execute stage. -/
theorem supplies_of_yields {decoded : Option Decoded} {result : Option Fetched}
    {middle : Processor} (carries : before.Carries stock) (latch : stock.latch = some fetched)
    (awake : before.stalled.decode = false)
    (first : (unlessStalled StageSet.decode none decode).Yields before decoded middle)
    (second : (unlessStalled StageSet.fetch none (some <$> fetch)).Yields middle result after) :
    ∃ reached, Supplies before stock fetched decoded result after reached := by
  simp only [unlessStalled, yields_bind, yields_get, and_assoc, exists_and_left, exists_eq_left,
    awake, Bool.false_eq_true, if_false] at first
  simp only [unlessStalled, yields_bind, yields_get, and_assoc, exists_and_left, exists_eq_left]
    at second
  rcases carries.latched fetched latch with ⟨-, latched⟩
  rcases decode_cases carries.holds latched first with ⟨packet, issues, rfl⟩ | ⟨defers, rfl⟩
  · have goes : middle.stalled.fetch = false := by rw [issues.stalled]
    simp only [goes, Bool.false_eq_true, if_false, yields_map] at second
    rcases second with ⟨next, ran, rfl⟩
    have placed : middle.machine.registers.content .rip = .number stock.position := by
      rw [issues.untouched.registers]
      exact carries.position
    exact ⟨_, .issued issues (fetches_of_yields placed ran)⟩
  · have waits : middle.stalled.fetch = true := by rw [defers.after_eq]
    simp only [waits, if_true, yields_pure] at second
    rcases second with ⟨rfl, rfl⟩
    exact ⟨_, .deferred defers⟩

/-- Where decode has to wait, at least two micro-operations are in flight. -/
theorem Defers.two_le (defers : Defers before stock.packets after)
    (carries : before.Carries stock) : 2 ≤ stock.waiting.length := by
  have crowded := defers.crowded
  have roomy := carries.roomy
  simp only [maxGroupLength] at crowded roomy
  rw [Stock.waiting]
  omega

theorem Supplies.carries {decoded : Option Decoded} {result : Option Fetched}
    (supplies : Supplies before stock fetched decoded result after reached)
    (carries : before.Carries stock) : after.Carries reached := by
  cases supplies with
  | issued issues fetches =>
    exact fetches.carries issues.holds (fresh_append carries.fresh issues.fresh)
      (issues.capacity ▸ carries.roomy)
  | deferred defers =>
    rw [defers.after_eq]
    exact ⟨carries.holds, carries.fresh, carries.roomy, carries.asleep, carries.position,
      carries.latched⟩

theorem Supplies.course {decoded : Option Decoded} {result : Option Fetched}
    (supplies : Supplies before stock fetched decoded result after reached) :
    before.SameCourse after := by
  cases supplies with
  | issued issues fetches =>
    exact ⟨fetches.course.running.trans issues.course.running,
      fetches.course.cycle.trans issues.course.cycle,
      fetches.course.cycleLimit.trans issues.course.cycleLimit,
      fetches.course.record.trans issues.course.record⟩
  | deferred defers =>
    rw [defers.after_eq]
    exact ⟨rfl, rfl, rfl, rfl⟩

/-- Decode and fetch leave the processor ready for the next cycle. -/
theorem Supplies.stocked {decoded : Option Decoded} {result : Option Fetched}
    (supplies : Supplies before stock fetched decoded result after reached)
    (carries : before.Carries stock) (latch : stock.latch = some fetched)
    (stalled : stock.packets ≠ [] → before.stalled = ⟨false, false, false⟩) :
    (finish after).Stocked reached := by
  have kept := (supplies.carries carries).finish
  cases supplies with
  | issued issues fetches =>
    refine ⟨kept, ?_, ?_, ?_⟩
    · rw [finish, fetches.stalled, issues.stalled]
      simp
    · intro _ lost
      cases lost
    · intro op alone branches
      rw [Stock.waiting, List.flatMap_append, List.flatMap_singleton] at alone
      rcases List.append_eq_singleton_iff.mp alone with ⟨-, only⟩ | ⟨-, none⟩
      · exact (issues.genuine.alone_of_jump only branches).2 issues.fresh
      · exact issues.genuine.pending none
  | deferred defers =>
    have many := defers.two_le carries
    have busy : stock.packets ≠ [] := by
      intro none
      rw [Stock.waiting, none] at many
      simp at many
    refine ⟨kept, ?_, ?_, ?_⟩
    · rw [defers.after_eq]
      show StageSet.mk false before.stalled.decode before.stalled.execute = _
      rw [stalled busy, latch, Option.isNone_some, List.isEmpty_eq_false_iff.mpr busy]
    · intro _ lost
      rw [latch] at lost
      cases lost
    · intro op alone
      rw [alone] at many
      simp at many

/-! ## Execute -/

/-- A micro-operation of an instruction leaves the registers of the pipeline
alone, since no instruction may store to them. -/
theorem internal_of_act {packet : Packet} {op : MicroOp} {rest : List MicroOp}
    {first second : Machine} {exits : Bool} (genuine : packet.Genuine)
    (front : packet.waiting = op :: rest)
    (acts : (Machine.act op).Yields first exits second) :
    ∀ register, register.isInternal = true →
      second.registers.content register = first.registers.content register := by
  intro register internal
  rcases (Machine.confined_of_act acts).registers register with
      same | rfl | ⟨stores, ref, named, rfl⟩
  · exact same
  · cases internal
  · have member : op ∈ packet.executed ++ packet.waiting := by simp [front]
    rcases Instruction.writable_of_store genuine.expanded member stores with
        ⟨target, operand, writable⟩
    rw [named] at operand
    cases operand
    rw [Operand.isWritable, internal] at writable
    cases writable

/-- A packet that is behind the advanced one is fresh. -/
theorem fresh_advance {packet : Packet} {op : MicroOp} {rest : List MicroOp} {later : List Packet}
    (fresh : ∀ packet ∈ later, packet.executed = []) :
    ∀ other ∈ (advance packet op rest later).tail, other.executed = [] := by
  intro other member
  rw [advance] at member
  split at member
  · exact fresh other (List.mem_of_mem_tail member)
  · exact fresh other member

theorem Retires.carries {packet : Packet} {op : MicroOp} {rest : List MicroOp}
    {later : List Packet} (retires : Retires before after) (carries : before.Carries stock)
    (packets : stock.packets = packet :: later) (front : packet.waiting = op :: rest)
    (internal : ∀ register, register.isInternal = true →
      after.machine.registers.content register = before.machine.registers.content register)
    (asleep : after.predictor.stalled = before.predictor.stalled) :
    after.Carries { stock with packets := advance packet op rest later } where
  holds := by
    have holds := carries.holds
    rw [packets] at holds
    rw [retires.inFlight]
    exact holds.retire front
  fresh := by
    have fresh := carries.fresh
    rw [packets] at fresh
    exact fresh_advance fresh
  roomy := by
    rw [retires.inFlight, InFlight.capacity_retire]
    exact carries.roomy
  asleep := asleep.trans carries.asleep
  position := (internal .rip rfl).trans carries.position
  latched := by
    intro fetched latch
    rcases carries.latched fetched latch with ⟨place, latched⟩
    exact ⟨place, latched.of_agree internal⟩

/-- The packet at the front is genuine. -/
theorem Carries.genuine_head {packet : Packet} {later : List Packet}
    (carries : before.Carries stock) (packets : stock.packets = packet :: later) :
    packet.Genuine :=
  carries.holds.genuine packet (packets ▸ List.mem_cons_self)

theorem Acts.carries {packet : Packet} {op : MicroOp} {rest : List MicroOp} {later : List Packet}
    (acts : Acts before op after) (carries : before.Carries stock)
    (packets : stock.packets = packet :: later) (front : packet.waiting = op :: rest) :
    after.Carries { stock with packets := advance packet op rest later } := by
  have internal := internal_of_act (carries.genuine_head packets) front acts.acts
  exact acts.toRetires.carries carries packets front internal (congrArg _ acts.predictor)

/-- A confirmed branch leaves the packets behind it. -/
theorem Confirms.carries {packet : Packet} {op : MicroOp} {later : List Packet}
    {resolution : Machine.Resolution}
    (confirms : Confirms before packet.location op resolution after)
    (carries : before.Carries stock) (packets : stock.packets = packet :: later)
    (front : packet.waiting = [op]) : after.Carries { stock with packets := later } := by
  refine confirms.toRetires.carries carries packets front ?_ ?_
  · intro register _
    rw [(Machine.untouched_of_resolve confirms.resolves).registers]
  · rcases Predictor.yields_update.mp confirms.updates with ⟨strategy, -, same⟩
    rw [same]

/-! ## All that a cycle can do -/

/-- What a cycle of a running processor does. -/
inductive Turns (before : Processor) (stock : Stock) : CycleTrace → Processor → Stock → Prop
  /-- After a redirect an instruction is fetched. -/
  | refetched {fetched : Fetched} {after : Processor} (idle : stock.packets = [])
      (lost : stock.latch = none) (fetches : Fetches before stock.position fetched after) :
      Turns before stock { cycle := before.cycle, fetched := some fetched } (finish after)
        ⟨[], some fetched, fetched.location⟩
  /-- One cycle later it is decoded. -/
  | refilled {fetched : Fetched} {decoded : Option Decoded} {result : Option Fetched}
      {after : Processor} {reached : Stock} (idle : stock.packets = [])
      (latch : stock.latch = some fetched)
      (supplies : Supplies before stock fetched decoded result after reached) :
      Turns before stock
        { cycle := before.cycle, fetched := result, fetchStalled := result.isNone, decoded }
        (finish after) reached
  | acted {packet : Packet} {op : MicroOp} {rest : List MicroOp} {later : List Packet}
      {fetched : Fetched} {middle : Processor} {decoded : Option Decoded}
      {result : Option Fetched} {after : Processor} {reached : Stock}
      (packets : stock.packets = packet :: later) (front : packet.waiting = op :: rest)
      (latch : stock.latch = some fetched) (plain : op.opcode ≠ .jump)
      (acts : Acts before op middle)
      (supplies : Supplies middle { stock with packets := advance packet op rest later } fetched
        decoded result after reached) :
      Turns before stock
        { cycle := before.cycle, fetched := result, fetchStalled := result.isNone, decoded
          executed := some op }
        (finish after) reached
  | confirmed {packet next : Packet} {op : MicroOp} {others : List Packet}
      {resolution : Machine.Resolution} {fetched : Fetched} {middle : Processor}
      {decoded : Option Decoded} {result : Option Fetched} {after : Processor} {reached : Stock}
      (packets : stock.packets = packet :: next :: others) (front : packet.waiting = [op])
      (latch : stock.latch = some fetched) (branches : op.opcode = .jump)
      (right : next.location = resolution.next)
      (confirms : Confirms before packet.location op resolution middle)
      (supplies : Supplies middle { stock with packets := next :: others } fetched
        decoded result after reached) :
      Turns before stock
        { cycle := before.cycle, fetched := result, fetchStalled := result.isNone, decoded
          executed := some op
          branch := some ⟨packet.location, resolution.next, resolution.taken, false⟩ }
        (finish after) reached
  | redirected {packet next : Packet} {op : MicroOp} {others : List Packet}
      {resolution : Machine.Resolution} {after : Processor}
      (packets : stock.packets = packet :: next :: others) (front : packet.waiting = [op])
      (branches : op.opcode = .jump) (wrong : next.location ≠ resolution.next)
      (redirects : Redirects before packet.location op resolution after) :
      Turns before stock
        { cycle := before.cycle, fetchStalled := true, executed := some op
          branch := some ⟨packet.location, resolution.next, resolution.taken, true⟩ }
        (finish after) ⟨[], none, resolution.next⟩
  | exited {packet : Packet} {op : MicroOp} {rest : List MicroOp} {later : List Packet}
      {after : Processor} (packets : stock.packets = packet :: later)
      (front : packet.waiting = op :: rest) (calls : op.opcode = .systemCall)
      (exits : Exits before op after) :
      Turns before stock { cycle := before.cycle, fetchStalled := true, executed := some op }
        (finish after) ⟨[], none, stock.position⟩

/-- The part of a cycle that follows the look at the cycle limit. -/
def turn (cycle : Nat) : Attempt Processor Fault (CycleTrace × Flow) := do
  let execution ← unlessStalled StageSet.execute {} execute
  let decoded ← unlessStalled StageSet.decode none decode
  let fetched ← unlessStalled StageSet.fetch none (some <$> fetch)
  modify finish
  return (
    { cycle, fetched, fetchStalled := fetched.isNone, decoded, executed := execution.op
      branch := execution.branch },
    execution.flow)

/-- A cycle of a running processor takes its turn unless it is at the limit. -/
theorem runCycle_of_running (running : before.running = true) :
    before.runCycle = (turn before.cycle).perform before ∨
      ∃ limit, before.runCycle = (.error (.cycleLimit limit), before) ∧
        before.cycleLimit = some limit ∧ limit ≤ before.cycle := by
  unfold runCycle step
  simp only [perform_bind, perform_get, running, Bool.not_true, Bool.false_eq_true, if_false]
  split
  · rename_i limit limited
    by_cases late : limit ≤ before.cycle
    · right
      exact ⟨limit, by simp only [late, if_true, perform_bind, perform_throw], limited, late⟩
    · left
      simp only [late, if_false]
      rfl
  · exact Or.inl rfl

theorem turn_of_runCycle {trace : CycleTrace} {flow : Flow} (running : before.running = true)
    (ran : before.runCycle = (.ok (trace, flow), after)) :
    (turn before.cycle).Yields before (trace, flow) after := by
  rcases runCycle_of_running running with turns | ⟨limit, late, -⟩
  · rw [turns] at ran
    exact ran
  · rw [late] at ran
    cases ran

/-- A processor that has stopped stays as it is. -/
theorem runCycle_of_stopped (stopped : before.running = false) :
    before.runCycle = (.ok ({ cycle := before.cycle }, .exit), before) := by
  unfold runCycle step
  simp only [perform_bind, perform_get, stopped]
  rfl

theorem yields_unlessStalled {α : Type} {stalled : StageSet → Bool} {idle value : α}
    {stage : Attempt Processor Fault α} :
    (unlessStalled stalled idle stage).Yields before value after ↔
      (stalled before.stalled = true ∧ value = idle ∧ after = before) ∨
      (stalled before.stalled = false ∧ stage.Yields before value after) := by
  simp only [unlessStalled, yields_bind, yields_get, and_assoc, exists_and_left, exists_eq_left]
  cases stalled before.stalled <;> simp

theorem ends_unlessStalled {α : Type} {stalled : StageSet → Bool} {idle : α}
    {stage : Attempt Processor Fault α} {good : α → Processor → Prop}
    {bad : Fault → Processor → Prop} (idles : stalled before.stalled = true → good idle before)
    (works : stalled before.stalled = false → stage.Ends before good bad) :
    (unlessStalled stalled idle stage).Ends before good bad := by
  rw [unlessStalled, ends_bind, ends_get]
  cases asleep : stalled before.stalled with
  | true => exact ends_pure.mpr (idles asleep)
  | false => exact works asleep

/-- With both stages stalled, nothing is decoded or fetched. -/
theorem skips_of_all {decoded : Option Decoded} {result : Option Fetched} {middle : Processor}
    (stalled : before.stalled = .all)
    (first : (unlessStalled StageSet.decode none decode).Yields before decoded middle)
    (second : (unlessStalled StageSet.fetch none (some <$> fetch)).Yields middle result after) :
    decoded = none ∧ result = none ∧ after = before := by
  rcases yields_unlessStalled.mp first with ⟨-, rfl, rfl⟩ | ⟨awake, -⟩
  · rcases yields_unlessStalled.mp second with ⟨-, rfl, rfl⟩ | ⟨awake, -⟩
    · exact ⟨rfl, rfl, rfl⟩
    · rw [stalled] at awake
      cases awake
  · rw [stalled] at awake
    cases awake

/-- A waiting branch is the last micro-operation of its packet, and the packet
behind it moves up. -/
theorem Stocked.packets_of_jump {packet : Packet} {op : MicroOp} {rest : List MicroOp}
    {later : List Packet} (stocked : before.Stocked stock)
    (packets : stock.packets = packet :: later) (front : packet.waiting = op :: rest)
    (branches : op.opcode = .jump) : rest = [] ∧ later ≠ [] := by
  have genuine := stocked.genuine_head packets
  have ended := (genuine.alone_of_jump front branches).1
  refine ⟨ended, ?_⟩
  intro none
  apply stocked.followed op _ branches
  rw [Stock.waiting, packets, none, List.flatMap_singleton, front, ended]

/-- Only with nothing in flight is there nothing to execute. -/
theorem Stocked.executes {execution : Execution} (stocked : before.Stocked stock)
    (ran : (unlessStalled StageSet.execute {} execute).Yields before execution after) :
    (stock.packets = [] ∧ execution = {} ∧ after = before) ∨
      ∃ packet op rest later, stock.packets = packet :: later ∧ packet.waiting = op :: rest ∧
        Executes before packet op later execution after := by
  cases packets : stock.packets with
  | nil =>
    rcases yields_unlessStalled.mp ran with ⟨-, rfl, rfl⟩ | ⟨awake, -⟩
    · exact Or.inl ⟨rfl, rfl, rfl⟩
    · rw [stocked.stalled, packets] at awake
      cases awake
  | cons packet later =>
    rcases yields_unlessStalled.mp ran with ⟨asleep, -⟩ | ⟨-, executes⟩
    · rw [stocked.stalled, packets] at asleep
      cases asleep
    · have holds := stocked.holds
      rw [packets] at holds
      have genuine := holds.genuine packet List.mem_cons_self
      rcases List.exists_cons_of_ne_nil genuine.pending with ⟨op, rest, front⟩
      have followed := fun branches => (stocked.packets_of_jump packets front branches).2
      exact Or.inr ⟨packet, op, rest, later, rfl, front,
        execute_cons holds front followed executes⟩

/-- A cycle of a running processor does one of the listed things, and says that
the program has ended if it has. -/
theorem Stocked.exists_turn {trace : CycleTrace} {flow : Flow} (stocked : before.Stocked stock)
    (running : before.running = true) (ran : before.runCycle = (.ok (trace, flow), after)) :
    ∃ reached, Turns before stock trace after reached ∧
      (flow = .exit ↔ after.running = false) := by
  have goes {ended : Processor} (still : ended.running = true) :
      (Flow.proceed = .exit ↔ ended.finish.running = false) := by
    simp [finish, still]
  have ran := turn_of_runCycle running ran
  simp only [turn, yields_bind, yields_modify, yields_pure] at ran
  rcases ran with ⟨execution, first, executes, decoded, second, decodes, result, third, fetches,
    _, _, rfl, same, rfl⟩
  cases same
  rcases stocked.executes executes with
      ⟨packets, rfl, rfl⟩ | ⟨packet, op, rest, later, packets, front, executes⟩
  · cases latch : stock.latch with
    | none =>
      rcases yields_unlessStalled.mp decodes with ⟨-, rfl, rfl⟩ | ⟨awake, -⟩
      · rcases yields_unlessStalled.mp fetches with ⟨asleep, -⟩ | ⟨-, fetches⟩
        · rw [stocked.stalled] at asleep
          cases asleep
        · rcases yields_map.mp fetches with ⟨fetched, fetching, rfl⟩
          have fetches := fetches_of_yields stocked.position fetching
          exact ⟨_, .refetched packets latch fetches,
            goes (fetches.course.running.trans running)⟩
      · rw [stocked.stalled, latch] at awake
        cases awake
    | some fetched =>
      have awake : first.stalled.decode = false := by rw [stocked.stalled, latch]; rfl
      rcases supplies_of_yields stocked.toCarries latch awake decodes fetches with
          ⟨reached, supplies⟩
      exact ⟨reached, .refilled packets latch supplies,
        goes (supplies.course.running.trans running)⟩
  · have filled : stock.packets ≠ [] := packets ▸ List.cons_ne_nil packet later
    rcases Option.ne_none_iff_exists'.mp (stocked.fed filled) with ⟨fetched, latch⟩
    cases executes with
    | acted plain acts =>
      have carries := acts.carries stocked.toCarries packets front
      have awake : first.stalled.decode = false := by
        rw [acts.stalled, stocked.stalled, latch]
        rfl
      rcases supplies_of_yields carries latch awake decodes fetches with ⟨reached, supplies⟩
      exact ⟨reached, .acted packets front latch plain acts supplies,
        goes ((supplies.course.running.trans acts.running).trans running)⟩
    | exited calls exits =>
      rcases skips_of_all exits.stalled decodes fetches with ⟨rfl, rfl, rfl⟩
      exact ⟨_, .exited packets front calls exits, fun _ => exits.running, fun _ => rfl⟩
    | confirmed branches behind right confirms =>
      rw [behind] at packets
      rw [(stocked.packets_of_jump packets front branches).1] at front
      have carries := confirms.carries stocked.toCarries packets front
      have awake : first.stalled.decode = false := by
        rw [confirms.stalled, stocked.stalled, latch]
        rfl
      rcases supplies_of_yields carries latch awake decodes fetches with ⟨reached, supplies⟩
      exact ⟨reached, .confirmed packets front latch branches right confirms supplies,
        goes ((supplies.course.running.trans confirms.running).trans running)⟩
    | redirected branches behind wrong redirects =>
      rcases skips_of_all redirects.stalled decodes fetches with ⟨rfl, rfl, rfl⟩
      rw [behind] at packets
      rw [(stocked.packets_of_jump packets front branches).1] at front
      exact ⟨_, .redirected packets front branches wrong redirects,
        goes (redirects.running.trans running)⟩

theorem Stocked.turns {trace : CycleTrace} {flow : Flow} (stocked : before.Stocked stock)
    (running : before.running = true) (ran : before.runCycle = (.ok (trace, flow), after)) :
    ∃ reached, Turns before stock trace after reached := by
  rcases stocked.exists_turn running ran with ⟨reached, turns, -⟩
  exact ⟨reached, turns⟩

/-- An emptied processor whose fetch goes on from a known address is ready for
the next cycle. -/
theorem Redirects.stocked {location : UInt64} {op : MicroOp} {resolution : Machine.Resolution}
    (redirects : Redirects before location op resolution after) (carries : before.Carries stock) :
    (finish after).Stocked ⟨[], none, resolution.next⟩ := by
  rcases redirects.updates with ⟨taught, -, stalls⟩
  rcases Predictor.yields_stall.mp stalls with ⟨strategy, -, asleep⟩
  refine ⟨⟨?_, ?_, ?_, ?_, redirects.rip, ?_⟩, ?_, ?_, ?_⟩
  · show after.inFlight.Holds []
    rw [redirects.inFlight]
    exact (InFlight.holds_flush _).2
  · intro packet member
    cases member
  · show maxGroupLength < after.inFlight.capacity
    rw [redirects.inFlight, InFlight.capacity_retire, InFlight.capacity_flush]
    exact carries.roomy
  · show after.predictor.stalled = true
    rw [asleep]
  · intro fetched lost
    cases lost
  · rw [finish, redirects.stalled]
    rfl
  · intro filled
    exact absurd rfl filled
  · intro op alone
    cases alone

/-- As long as the program has not exited, a cycle leaves the processor ready
for the next one. -/
theorem Turns.stocked {trace : CycleTrace} (turns : Turns before stock trace after reached)
    (stocked : before.Stocked stock) (running : after.running = true) : after.Stocked reached := by
  cases turns with
  | refetched idle lost fetches =>
    have holds := stocked.holds
    rw [idle] at holds
    have kept := fetches.carries holds (fun _ member => nomatch member) stocked.roomy
    refine ⟨kept.finish, ?_, ?_, ?_⟩
    · rw [finish, fetches.stalled, stocked.stalled, idle]
      rfl
    · intro filled
      exact absurd rfl filled
    · intro op alone
      cases alone
  | refilled idle latch supplies =>
    exact supplies.stocked stocked.toCarries latch fun filled => absurd idle filled
  | acted packets front latch plain acts supplies =>
    refine supplies.stocked (acts.carries stocked.toCarries packets front) latch ?_
    intro _
    rw [acts.stalled, stocked.stalled, latch, packets]
    rfl
  | confirmed packets front latch branches right confirms supplies =>
    refine supplies.stocked (confirms.carries stocked.toCarries packets front) latch ?_
    intro _
    rw [confirms.stalled, stocked.stalled, latch, packets]
    rfl
  | redirected packets front branches wrong redirects =>
    exact redirects.stocked stocked.toCarries
  | exited packets front calls exits =>
    replace running := exits.running.symm.trans running
    cases running

end Processor
end BranchPipeline
