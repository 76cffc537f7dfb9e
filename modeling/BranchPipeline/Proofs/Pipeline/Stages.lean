import BranchPipeline.Proofs.Instruction.Mark
import BranchPipeline.Proofs.Machine.Effects
import BranchPipeline.Proofs.Pipeline.Packets
import BranchPipeline.Proofs.Prediction.Trained

namespace BranchPipeline
namespace Processor

open Attempt

/-!
# What a stage does

Each stage is described once, by all that it does when it does not fail.  The
descriptions speak of the machine, the predictor and the packets in flight, so
that nothing behind this module has to open the definition of a stage.
-/

variable {before after : Processor}

theorem yields_onMachine {α : Type} {operation : Attempt Machine Fault α} {value : α} :
    (onMachine operation).Yields before value after ↔
      ∃ machine, operation.Yields before.machine value machine ∧
        after = { before with machine } :=
  yields_onPart

theorem yields_onPredictor {α : Type} {operation : Attempt Predictor BufferFault α} {value : α} :
    (onPredictor operation).Yields before value after ↔
      ∃ predictor, operation.Yields before.predictor value predictor ∧
        after = { before with predictor } :=
  yields_onPart

theorem yields_onInFlight {α : Type} {operation : Attempt InFlight BufferFault α} {value : α} :
    (onInFlight operation).Yields before value after ↔
      ∃ inFlight, operation.Yields before.inFlight value inFlight ∧
        after = { before with inFlight } :=
  yields_onPart

/-- What only the execute stage and the end of a cycle change. -/
structure SameCourse (before after : Processor) : Prop where
  running : after.running = before.running
  cycle : after.cycle = before.cycle
  cycleLimit : after.cycleLimit = before.cycleLimit
  record : after.record = before.record

/-! ## Fetch -/

/-- The instruction that fetch has handed over is in the fetch registers. -/
structure Latched (machine : Machine) (fetched : Fetched) : Prop where
  rip : machine.registers.content .rip = .number fetched.location
  mar : machine.registers.content .mar = .number fetched.location
  cir : machine.registers.content .cir =
    .text (handedOver fetched.token fetched.speculative)

/-- The fetch stage goes where the predictor sends it from `position`, reads
the instruction there and hands it over. -/
structure Fetches (before : Processor) (position : UInt64) (fetched : Fetched)
    (after : Processor) : Prop where
  predicts : (Predictor.predict position).Yields before.predictor fetched.location after.predictor
  reads : ∃ asked answered, before.machine.Agrees asked ∧
    (instructionAt fetched.location).Yields asked fetched.token answered
  agrees : before.machine.Agrees after.machine
  latched : Latched after.machine fetched
  stalled : after.stalled = { before.stalled with decode := false }
  inFlight : after.inFlight = before.inFlight
  course : before.SameCourse after

theorem untouched_of_instructionAt {location : UInt64} {token : String} {first second : Machine}
    (reads : (instructionAt location).Yields first token second) : first.Untouched second := by
  simp only [instructionAt, yields_bind] at reads
  rcases reads with ⟨textStart, one, start, dataStart, two, stop, reads⟩
  have counted := (Machine.untouched_of_readRegister start).trans
    (Machine.untouched_of_readRegister stop)
  split at reads
  · simp only [yields_bind, yields_ofExcept, and_assoc, exists_and_left, exists_eq_left,
      Machine.yields_readToken] at reads
    rcases reads with ⟨address, -, cell, reads, -⟩
    exact counted.trans (Machine.untouched_of_readCell reads)
  · rcases yields_pure.mp reads with ⟨-, rfl⟩
    exact counted

theorem fetches_of_yields {position : UInt64} {fetched : Fetched}
    (placed : before.machine.registers.content .rip = .number position)
    (ran : fetch.Yields before fetched after) : Fetches before position fetched after := by
  simp only [fetch, yields_bind, yields_onMachine, yields_onPredictor, yields_get, yields_modify,
    yields_pure, and_assoc, exists_and_left, exists_eq_left] at ran
  rcases ran with ⟨current, _, ⟨counted, reads, rfl⟩, location, _, ⟨predictor, predicts, rfl⟩,
    _, _, ⟨machine, ⟨_, token, answered, finds, rfl, -, rfl⟩, rfl⟩, rfl, -, rfl⟩
  rcases Machine.yields_readRegister.mp reads with ⟨same, rfl⟩
  rw [RegisterFile.read_full placed] at same
  injection same with same
  subst same
  have untouched := untouched_of_instructionAt finds
  have agrees : before.machine.Agrees answered := by
    refine .trans ?_ untouched.agrees
    exact (Machine.agrees_put _ rfl _ _).trans (Machine.agrees_put _ rfl _ _)
  refine ⟨predicts, ⟨_, answered, ?_, finds⟩, ?_, ⟨?_, ?_, ?_⟩, rfl, rfl, ⟨rfl, rfl, rfl, rfl⟩⟩
  · exact agrees.trans untouched.agrees.symm
  · exact (agrees.trans (Machine.agrees_put _ rfl _ _)).trans (Machine.agrees_put _ rfl _ _)
  · show ((answered.registers.writeText .mbr _).writeText .cir _).content .rip = _
    rw [RegisterFile.writeText, RegisterFile.content_put_of_ne _ _ _ _ (by decide),
      RegisterFile.writeText, RegisterFile.content_put_of_ne _ _ _ _ (by decide),
      untouched.registers]
    show ((_ : RegisterFile).write (.full .mar) location).content .rip = _
    rw [RegisterFile.write, RegisterFile.content_put_of_ne _ _ _ _ (by decide)]
    exact RegisterFile.content_write_full _ _ _
  · show ((answered.registers.writeText .mbr _).writeText .cir _).content .mar = _
    rw [RegisterFile.writeText, RegisterFile.content_put_of_ne _ _ _ _ (by decide),
      RegisterFile.writeText, RegisterFile.content_put_of_ne _ _ _ _ (by decide),
      untouched.registers]
    exact RegisterFile.content_write_full _ _ _
  · exact RegisterFile.content_put_self _ _ _

/-! ## Decode -/

/-- The decode stage appends the instruction that was handed over to the
packets in flight. -/
structure Issues (before : Processor) (packets : List Packet) (fetched : Fetched)
    (packet : Packet) (after : Processor) : Prop where
  location : packet.location = fetched.location
  token : packet.token = instruction fetched.token
  fresh : packet.executed = []
  genuine : packet.Genuine
  untouched : before.machine.Untouched after.machine
  holds : after.inFlight.Holds (packets ++ [packet])
  capacity : after.inFlight.capacity = before.inFlight.capacity
  predictor : after.predictor = before.predictor
  stalled : after.stalled = { fetch := false, decode := true, execute := false }
  course : before.SameCourse after

/-- The decode stage finds too little room, and keeps fetch from overwriting
the instruction. -/
structure Defers (before : Processor) (packets : List Packet) (after : Processor) : Prop where
  crowded : before.inFlight.capacity < (packets.flatMap Packet.waiting).length + maxGroupLength
  after_eq : after = { before with
    stalled := { before.stalled with fetch := true }
    events := before.events.fetchStalled }

/-- The decode stage either issues the instruction or defers it. -/
theorem decode_cases {packets : List Packet} {fetched : Fetched} {decoded : Option Decoded}
    (holds : before.inFlight.Holds packets) (latched : Latched before.machine fetched)
    (ran : decode.Yields before decoded after) :
    (∃ packet, Issues before packets fetched packet after ∧
      decoded = some ⟨packet.location, packet.token, packet.waiting⟩) ∨
    (Defers before packets after ∧ decoded = none) := by
  have cir : (before.machine.registers.text? .cir).getD "" =
      handedOver fetched.token fetched.speculative := by
    rw [RegisterFile.text?, latched.cir, Option.getD_some]
  simp only [decode, yields_bind, yields_get, and_assoc, exists_and_left, exists_eq_left, cir,
    yields_ofExcept] at ran
  rcases ran with ⟨group, expanded, ran⟩
  have length := Instruction.length_le expanded
  split at ran
  · rename_i crowded
    simp only [yields_bind, yields_set, yields_pure] at ran
    rcases ran with ⟨_, _, rfl, rfl, rfl⟩
    refine Or.inr ⟨⟨?_, rfl⟩, rfl⟩
    rw [holds.free_eq] at crowded
    omega
  · rename_i room
    simp only [yields_bind, yields_onMachine, yields_onInFlight, yields_modify, yields_pure,
      Machine.yields_readRegister, and_assoc] at ran
    rcases ran with ⟨location, _, ⟨machine, reads, rfl, rfl⟩, _, _, ⟨inFlight, issues, rfl⟩,
      _, _, rfl, rfl, rfl⟩
    rw [RegisterFile.read_full latched.mar] at reads
    injection reads with reads
    subst reads
    let packet : Packet := ⟨fetched.location, instruction (handedOver fetched.token
      fetched.speculative), (splitMark (handedOver fetched.token fetched.speculative)).2, [], group⟩
    have genuine : packet.Genuine :=
      ⟨expanded, List.ne_nil_of_length_pos (Instruction.length_pos expanded)⟩
    rcases holds.exists_issue genuine rfl (Nat.not_lt.mp room) with
        ⟨reached, issued, held, capacity⟩
    rcases issued.unique issues with ⟨-, rfl⟩
    refine Or.inl ⟨packet, ⟨rfl, instruction_handedOver expanded, rfl, genuine, ⟨rfl, rfl, rfl⟩,
      held, capacity, rfl, rfl, ⟨rfl, rfl, rfl, rfl⟩⟩, rfl⟩

/-! ## Execute -/

/-- What every execution does that does not empty the pipeline. -/
structure Retires (before after : Processor) : Prop where
  inFlight : after.inFlight = before.inFlight.retire
  stalled : after.stalled = before.stalled
  running : after.running = before.running
  cycle : after.cycle = before.cycle
  cycleLimit : after.cycleLimit = before.cycleLimit

/-- A micro-operation that is not a branch takes effect. -/
structure Acts (before : Processor) (op : MicroOp) (after : Processor) : Prop
    extends Retires before after where
  acts : (Machine.act op).Yields before.machine false after.machine
  predictor : after.predictor = before.predictor
  record : after.record = before.record

/-- A branch that was predicted well tells the predictor its outcome. -/
structure Confirms (before : Processor) (location : UInt64) (op : MicroOp)
    (resolution : Machine.Resolution) (after : Processor) : Prop extends Retires before after where
  resolves : (Machine.resolve op location).Yields before.machine resolution after.machine
  updates : (Predictor.update location resolution.target resolution.taken).Yields before.predictor
    () after.predictor
  record : after.record = before.record.note before.cycle false

/-- What every execution does that empties the pipeline. -/
structure Empties (before after : Processor) : Prop where
  inFlight : after.inFlight = before.inFlight.flush.retire
  stalled : after.stalled = .all
  cycle : after.cycle = before.cycle
  cycleLimit : after.cycleLimit = before.cycleLimit

/-- A branch that was predicted badly empties the pipeline and sends fetch to
where execution goes on. -/
structure Redirects (before : Processor) (location : UInt64) (op : MicroOp)
    (resolution : Machine.Resolution) (after : Processor) : Prop extends Empties before after where
  resolves : ∃ machine, (Machine.resolve op location).Yields before.machine resolution machine ∧
    machine.Agrees after.machine
  rip : after.machine.registers.content .rip = .number resolution.next
  updates : ∃ taught,
    (Predictor.update location resolution.target resolution.taken).Yields before.predictor
      () taught ∧
    Predictor.stall.Yields taught () after.predictor
  running : after.running = before.running
  record : after.record = before.record.note before.cycle true

/-- The system call that ends the program empties the pipeline.  The predictor
is not told. -/
structure Exits (before : Processor) (op : MicroOp) (after : Processor) : Prop
    extends Empties before after where
  acts : ∃ machine, (Machine.act op).Yields before.machine true machine ∧
    machine.Agrees after.machine
  predictor : after.predictor = before.predictor
  running : after.running = false
  record : after.record = before.record

/-- What the execute stage does with the first micro-operation `op` of
`packet`, when the packets in `later` are behind it. -/
inductive Executes (before : Processor) (packet : Packet) (op : MicroOp) (later : List Packet) :
    Execution → Processor → Prop
  | acted {after : Processor} (plain : op.opcode ≠ .jump) (acts : Acts before op after) :
      Executes before packet op later { op := some op } after
  | exited {after : Processor} (calls : op.opcode = .systemCall) (exits : Exits before op after) :
      Executes before packet op later { flow := .exit, op := some op } after
  | confirmed {resolution : Machine.Resolution} {next : Packet} {rest : List Packet}
      {after : Processor} (branches : op.opcode = .jump) (followed : later = next :: rest)
      (right : next.location = resolution.next)
      (confirms : Confirms before packet.location op resolution after) :
      Executes before packet op later
        { op := some op
          branch := some ⟨packet.location, resolution.next, resolution.taken, false⟩ } after
  | redirected {resolution : Machine.Resolution} {next : Packet} {rest : List Packet}
      {after : Processor} (branches : op.opcode = .jump) (followed : later = next :: rest)
      (wrong : next.location ≠ resolution.next)
      (redirects : Redirects before packet.location op resolution after) :
      Executes before packet op later
        { op := some op
          branch := some ⟨packet.location, resolution.next, resolution.taken, true⟩ } after

theorem agrees_flush (processor : Processor) :
    processor.machine.Agrees processor.flush.machine :=
  ((Machine.agrees_put _ rfl _ _).trans (Machine.agrees_put _ rfl _ _)).trans
    (Machine.agrees_put _ rfl _ _)

/-- A branch whose successor is known is confirmed or redirects fetch. -/
theorem executes_of_resolveBranch {packet next : Packet} {op : MicroOp} {rest : List Packet}
    {middle : Processor} {branch : BranchOutcome} (branches : op.opcode = .jump)
    (entry : ReorderEntry) (place : entry.location = packet.location)
    (resolved : (resolveBranch op entry next.successor).Yields before branch middle) :
    Executes before packet op (next :: rest) { op := some op, branch := some branch }
      (retire op middle) := by
  simp only [resolveBranch, yields_bind, yields_onMachine, yields_onPredictor, place] at resolved
  rcases resolved with ⟨resolution, _, ⟨machine, resolves, rfl⟩, _, _, ⟨taught, updates, rfl⟩,
    resolved⟩
  by_cases right : next.location = resolution.next
  · simp only [Packet.successor, right, bne_self_eq_false, Bool.false_eq_true, if_false,
      yields_bind, yields_modify, yields_pure] at resolved
    rcases resolved with ⟨_, _, rfl, rfl, rfl⟩
    exact .confirmed branches rfl right
      ⟨⟨rfl, rfl, rfl, rfl, rfl⟩, resolves, updates, rfl⟩
  · have wrong : (next.location != resolution.next) = true := bne_iff_ne.mpr right
    simp only [Packet.successor, wrong, if_true, yields_bind, yields_modify, yields_onPredictor,
      yields_pure] at resolved
    rcases resolved with ⟨_, _, rfl, _, _, rfl, _, _, ⟨predictor, stalls, rfl⟩, _, _, rfl, rfl, rfl⟩
    refine .redirected branches rfl right
      ⟨⟨rfl, rfl, rfl, rfl⟩, ⟨machine, resolves, ?_⟩, ?_, ⟨taught, updates, stalls⟩, rfl, rfl⟩
    · exact .trans (agrees_flush { before with machine }) (Machine.agrees_put _ rfl _ _)
    · exact RegisterFile.content_write_full _ _ _

theorem executes_of_systemCall {packet : Packet} {op : MicroOp} {later : List Packet}
    {middle : Processor} {flow : Flow} (calls : op.opcode = .systemCall)
    (called : systemCall.Yields before flow middle) :
    Executes before packet op later { flow, op := some op } (retire op middle) := by
  have acts : Machine.act op = Machine.systemCall := by rw [Machine.act, calls]
  simp only [systemCall, yields_bind, yields_onMachine] at called
  rcases called with ⟨exits, _, ⟨machine, ran, rfl⟩, called⟩
  rw [← acts] at ran
  cases exits with
  | true =>
    simp only [if_true, yields_bind, yields_modify, yields_pure] at called
    rcases called with ⟨_, _, rfl, _, _, rfl, rfl, rfl⟩
    exact .exited calls ⟨⟨rfl, rfl, rfl, rfl⟩,
      ⟨machine, ran, agrees_flush { before with machine, running := false }⟩, rfl, rfl, rfl⟩
  | false =>
    simp only [Bool.false_eq_true, if_false, yields_pure] at called
    rcases called with ⟨rfl, rfl⟩
    refine .acted ?_ ⟨⟨rfl, rfl, rfl, rfl, rfl⟩, ran, rfl, rfl⟩
    rw [calls]
    decide

/-- The execute stage takes the first micro-operation of the oldest packet,
provided that a branch there is followed by another packet. -/
theorem execute_cons {packet : Packet} {op : MicroOp} {rest : List MicroOp} {later : List Packet}
    {execution : Execution} (holds : before.inFlight.Holds (packet :: later))
    (front : packet.waiting = op :: rest) (followed : op.opcode = .jump → later ≠ [])
    (ran : execute.Yields before execution after) :
    Executes before packet op later execution after := by
  simp only [execute, yields_bind, yields_get, and_assoc, exists_and_left, exists_eq_left,
    holds.head?_cons front] at ran
  by_cases branches : op.opcode = .jump
  · rcases List.exists_cons_of_ne_nil (followed branches) with ⟨next, others, rfl⟩
    simp only [Packet.entry, successorOf, branches, if_true, yields_bind, yields_modify,
      yields_pure] at ran
    rcases ran with ⟨branch, middle, resolved, _, _, rfl, rfl, rfl⟩
    exact executes_of_resolveBranch branches _ rfl resolved
  · by_cases calls : op.opcode = .systemCall
    · simp only [calls, yields_bind, yields_modify, yields_pure] at ran
      rcases ran with ⟨flow, middle, called, _, _, rfl, rfl, rfl⟩
      exact executes_of_systemCall calls called
    · have operated : (do
          onMachine (Machine.operate op)
          modify (retire op)
          return { op := some op } : Attempt Processor Fault Execution).Yields before execution
            after := by
        split at ran
        · contradiction
        · contradiction
        · contradiction
        · exact ran
      have acts : Machine.act op = (do Machine.operate op; return false) := by
        unfold Machine.act
        split
        · contradiction
        · rfl
      simp only [yields_bind, yields_onMachine, yields_modify, yields_pure] at operated
      rcases operated with ⟨_, _, ⟨machine, operates, rfl⟩, _, _, rfl, rfl, rfl⟩
      refine .acted branches ⟨⟨rfl, rfl, rfl, rfl, rfl⟩, ?_, rfl, rfl⟩
      rw [acts]
      exact yields_bind.mpr ⟨(), machine, operates, yields_pure.mpr ⟨rfl, rfl⟩⟩

end Processor
end BranchPipeline
