import BranchPipeline.Proofs.Pipeline.Sequential

namespace BranchPipeline

open Attempt

/-!
# The pipeline refines the sequential machine

Whatever the predictor says, and however full the buffers are, the processor
executes what the sequential machine executes, in the same order and with the
same effects.  The reason is that a wrong prediction never gets beyond the
branch that it was made for.  What waits behind a branch may be wrong, and is
then dropped; but behind an instruction without a branch there is always the
next one, and the oldest instruction in flight is always the one at which the
sequential machine stands.
-/

/-- Where execution goes on with these packets in flight, and with `position`
behind them. -/
def headLocation (position : UInt64) : List Packet → UInt64
  | [] => position
  | packet :: _ => packet.location

/-- A packet without a branch is followed by the instruction behind it. -/
def Straight (position : UInt64) : List Packet → Prop
  | [] => True
  | packet :: later =>
    (packet.isBranch = false → headLocation position later = packet.location + 1) ∧
      Straight position later

/-- What remains to be executed of an instruction that has begun. -/
def begun : List Packet → List MicroOp
  | [] => []
  | packet :: _ => if packet.executed.isEmpty then [] else packet.waiting.map (·.marked false)

section

variable {position next : UInt64} {packets : List Packet} {packet : Packet}

theorem headLocation_append (place : packet.location = position) :
    headLocation next (packets ++ [packet]) = headLocation position packets := by
  cases packets with
  | nil => exact place
  | cons first later => rfl

theorem begun_append (fresh : packet.executed = []) :
    begun (packets ++ [packet]) = begun packets := by
  cases packets with
  | nil => simp [begun, fresh]
  | cons first later => rfl

theorem begun_of_fresh (fresh : ∀ packet ∈ packets, packet.executed = []) : begun packets = [] := by
  cases packets with
  | nil => rfl
  | cons first later => simp [begun, fresh first List.mem_cons_self]

/-- A packet that stands where the others end may lead on to a new end. -/
theorem Straight.append (straight : Straight position packets) (place : packet.location = position)
    (onward : packet.isBranch = false → next = packet.location + 1) :
    Straight next (packets ++ [packet]) := by
  induction packets with
  | nil => exact ⟨onward, trivial⟩
  | cons first later inductionHypothesis =>
    refine ⟨?_, inductionHypothesis straight.2⟩
    show first.isBranch = false → headLocation next (later ++ [packet]) = first.location + 1
    rw [headLocation_append place]
    exact straight.1

end

/-- An ordinary program, as fetch and decode see it.  No text has the mark of
speculation at its end, no instruction writes the bounds of the text section,
and none names a register of the pipeline. -/
structure Memory.Ordinary (source : Memory) : Prop where
  plain : ∀ location token, source.tokenAt location = .ok token → ¬ Starred token
  sparesBounds : source.SparesBounds
  visible : ∀ group, source.Expands group → ∀ op ∈ group, op.Visible

/-- An ordinary program: no text of its text section has the mark of speculation
at its end, no instruction writes the bounds of the text section, and none
names a register of the pipeline. -/
structure Executable.Ordinary (executable : Executable) : Prop where
  plain : ∀ location text, executable.tokenAt? location = some text → ¬ Starred text
  sparesBounds : executable.SparesBounds
  visible : ∀ group, executable.Decodes group → ∀ op ∈ group, op.Visible

/-- It can be computed that an executable is ordinary. -/
theorem Executable.ordinary_of_listed {executable : Executable}
    (plain : ∀ text ∈ executable.texts, ¬ Starred text)
    (spares : executable.groups.any (·.any writesBounds) = false)
    (visible : ∀ group ∈ executable.groups, ∀ op ∈ group, op.Visible) : executable.Ordinary where
  plain _ text found := plain text (mem_texts found)
  sparesBounds := sparesBounds_of_groups spares
  visible group decodes := visible group decodes.mem_groups

namespace Processor

variable {before after : Processor} {stock reached : Stock} {fetched : Fetched} {source : Memory}
  {kind : PredictorKind} {room : Nat} {state : Sequential} {packet : Packet} {op : MicroOp}
  {rest : List MicroOp} {later : List Packet}

/-- The sequential machine stands where the processor executes next, and holds
what the processor holds. -/
structure Follows (source : Memory) (processor : Processor) (stock : Stock)
    (state : Sequential) : Prop where
  agrees : processor.machine.Agrees state.machine
  text : ∀ location, state.machine.memory.tokenAt location = source.tokenAt location
  running : state.running = true
  counter : state.counter = headLocation stock.position stock.packets
  rest : state.rest = begun stock.packets
  straight : Straight stock.position stock.packets

theorem Follows.finish (follows : before.Follows source stock state) :
    before.finish.Follows source stock state :=
  ⟨follows.agrees, follows.text, follows.running, follows.counter, follows.rest, follows.straight⟩

/-- What the sequential machine executes next is what waits first. -/
theorem Follows.next_eq (follows : before.Follows source stock state)
    (traced : Traced source kind room before stock) (ordinary : source.Ordinary)
    (packets : stock.packets = packet :: later) (genuine : packet.Genuine)
    (front : packet.waiting = op :: rest) :
    state.next = .ok (op.marked false, rest.map (·.marked false)) := by
  unfold Sequential.next
  rw [follows.rest, packets, begun]
  cases done : packet.executed with
  | cons first others =>
    simp only [List.isEmpty_cons, Bool.false_eq_true, if_false, front, List.map_cons]
  | nil =>
    have origin := traced.packets packet (packets ▸ List.mem_cons_self)
    have expanded := genuine.expanded
    rw [done, front, List.nil_append] at expanded
    rw [Memory.instructionAt] at origin
    cases read : source.tokenAt packet.location with
    | error fault =>
      rw [read] at origin
      cases origin
    | ok text =>
      rw [read] at origin
      injection origin with same
      rw [instruction, splitMark_of_not_starred (ordinary.plain _ _ read)] at same
      have begins := Instruction.begin_eq_ok (Instruction.expand_marked expanded false)
      simp only [List.isEmpty_nil, if_true, follows.text, follows.counter, packets, headLocation,
        read, show text = packet.token from same]
      show (Instruction.begin packet.token).mapError Fault.decode = _
      rw [begins]
      rfl

/-- What waits names no register of the pipeline. -/
theorem Traced.visible (traced : Traced source kind room before stock)
    (ordinary : source.Ordinary) (packets : stock.packets = packet :: later)
    (genuine : packet.Genuine) (front : packet.waiting = op :: rest) : op.Visible := by
  have expands := traced.expands (packets ▸ List.mem_cons_self) genuine
  exact ordinary.visible _ expands op (by simp [front])

/-! ## What both execute -/

/-- A micro-operation that is not a branch has the same effect in both. -/
theorem Follows.exists_act (follows : before.Follows source stock state) (visible : op.Visible)
    (first : state.next = .ok (op.marked false, rest)) (spares : state.storesText = false)
    {exits : Bool} {changed : Machine}
    (acts : (Machine.act op).Yields before.machine exits changed) :
    ∃ machine, (Machine.act (op.marked false)).Yields state.machine exits machine ∧
      changed.Agrees machine ∧
      ∀ location, machine.memory.tokenAt location = source.tokenAt location := by
  rcases Machine.blind_act visible follows.agrees acts with ⟨machine, acts, agrees⟩
  have marked : (Machine.act (op.marked false)).Yields state.machine exits machine :=
    Machine.yields_act_marked.mpr acts
  refine ⟨machine, marked, agrees, ?_⟩
  intro location
  rw [← follows.text location]
  rcases (Machine.confined_of_act marked).memory with same | ⟨address, value, stores, stored⟩
  · rw [same]
  · have outside := Sequential.outside_of_storesText first spares stores
    exact Memory.tokenAt_of_set_outside stored outside location

/-- A branch goes to the same place in both. -/
theorem Follows.exists_resolve (follows : before.Follows source stock state) {location : UInt64}
    {resolution : Machine.Resolution} {changed : Machine}
    (resolves : (Machine.resolve op location).Yields before.machine resolution changed) :
    ∃ machine,
      (Machine.resolve (op.marked false) location).Yields state.machine resolution machine ∧
      changed.Agrees machine ∧
      ∀ location, machine.memory.tokenAt location = source.tokenAt location := by
  rcases Machine.blind_resolve op location follows.agrees resolves with ⟨machine, resolves, agrees⟩
  refine ⟨machine, Machine.yields_resolve_marked.mpr resolves, agrees, ?_⟩
  intro place
  rw [(Machine.untouched_of_resolve resolves).memory]
  exact follows.text place

/-- Executing a micro-operation that is not a branch. -/
theorem Acts.follows (acts : Acts before op after)
    (follows : before.Follows source stock state) (carries : before.Carries stock)
    (traced : Traced source kind room before stock) (ordinary : source.Ordinary)
    (packets : stock.packets = packet :: later) (front : packet.waiting = op :: rest)
    (plain : op.opcode ≠ .jump) (spares : state.storesText = false) :
    ∃ moved, Sequential.step.Yields state (op.marked false) moved ∧
      after.Follows source { stock with packets := advance packet op rest later } moved := by
  have genuine := carries.genuine_head packets
  have visible := traced.visible ordinary packets genuine front
  have first := follows.next_eq traced ordinary packets genuine front
  have branch := Packet.isBranch_eq_any front plain
  have counter := follows.counter
  have straight := follows.straight
  have fresh := carries.fresh
  rw [packets] at counter straight fresh
  rcases follows.exists_act visible first spares acts.acts with ⟨machine, marked, agrees, text⟩
  refine ⟨_, Sequential.yields_step_of_act first plain marked, agrees, text, rfl, ?_, ?_, ?_⟩
  · show Sequential.advanced _ _ = headLocation stock.position (advance packet op rest later)
    rw [Sequential.advanced, List.isEmpty_map, advance, counter, headLocation]
    cases rest with
    | nil => exact (straight.1 branch).symm
    | cons second others => rfl
  · show rest.map _ = begun (advance packet op rest later)
    rw [advance]
    cases rest with
    | nil => exact (begun_of_fresh fresh).symm
    | cons second others => simp [begun, Packet.stepped]
  · show Straight stock.position (advance packet op rest later)
    rw [advance]
    split
    · exact straight.2
    · refine ⟨?_, straight.2⟩
      intro none
      apply straight.1
      rw [branch]
      exact none

/-- Executing a branch that was predicted well: what is behind it is what
execution goes on with. -/
theorem Confirms.follows {resolution : Machine.Resolution}
    (confirms : Confirms before packet.location op resolution after)
    (follows : before.Follows source stock state) (carries : before.Carries stock)
    (traced : Traced source kind room before stock) (ordinary : source.Ordinary)
    (packets : stock.packets = packet :: later) (front : packet.waiting = [op])
    (branches : op.opcode = .jump)
    (right : headLocation stock.position later = resolution.next) :
    ∃ moved, Sequential.step.Yields state (op.marked false) moved ∧
      after.Follows source { stock with packets := later } moved := by
  have first := follows.next_eq traced ordinary packets (carries.genuine_head packets) front
  have place := follows.counter
  have straight := follows.straight
  have fresh := carries.fresh
  rw [packets] at place straight fresh
  rcases follows.exists_resolve confirms.resolves with ⟨machine, resolves, agrees, text⟩
  rw [show packet.location = state.counter from place.symm] at resolves
  exact ⟨_, Sequential.yields_step_of_jump first branches resolves, agrees, text, follows.running,
    right.symm, (begun_of_fresh fresh).symm, straight.2⟩

/-- Executing a branch that was predicted badly.  What waits behind it is
dropped, and fetch goes where the sequential machine goes. -/
theorem Redirects.follows {resolution : Machine.Resolution}
    (redirects : Redirects before packet.location op resolution after)
    (follows : before.Follows source stock state) (carries : before.Carries stock)
    (traced : Traced source kind room before stock) (ordinary : source.Ordinary)
    (packets : stock.packets = packet :: later) (front : packet.waiting = [op])
    (branches : op.opcode = .jump) :
    ∃ moved, Sequential.step.Yields state (op.marked false) moved ∧
      after.Follows source ⟨[], none, resolution.next⟩ moved := by
  have first := follows.next_eq traced ordinary packets (carries.genuine_head packets) front
  have place := follows.counter
  rw [packets] at place
  rcases redirects.resolves with ⟨changed, resolves, flushed⟩
  rcases follows.exists_resolve resolves with ⟨machine, resolves, agrees, text⟩
  rw [show packet.location = state.counter from place.symm] at resolves
  exact ⟨_, Sequential.yields_step_of_jump first branches resolves, flushed.symm.trans agrees, text,
    follows.running, rfl, rfl, trivial⟩

/-- The exit ends both. -/
theorem Exits.follows (exits : Exits before op after)
    (follows : before.Follows source stock state) (carries : before.Carries stock)
    (traced : Traced source kind room before stock) (ordinary : source.Ordinary)
    (packets : stock.packets = packet :: later) (front : packet.waiting = op :: rest)
    (calls : op.opcode = .systemCall) (spares : state.storesText = false) :
    ∃ moved, Sequential.step.Yields state (op.marked false) moved ∧
      after.machine.Agrees moved.machine ∧ moved.running = false := by
  have genuine := carries.genuine_head packets
  have plain : (op.marked false).opcode ≠ .jump := by
    rw [show (op.marked false).opcode = _ from calls]
    decide
  have visible := traced.visible ordinary packets genuine front
  have first := follows.next_eq traced ordinary packets genuine front
  rcases exits.acts with ⟨changed, acts, flushed⟩
  rcases follows.exists_act visible first spares acts with ⟨machine, marked, agrees, -⟩
  exact ⟨_, Sequential.yields_step_of_act first plain marked, flushed.symm.trans agrees, rfl⟩

/-! ## What only the pipeline does -/

/-- Decode and fetch do not change what the sequential machine sees. -/
theorem Supplies.follows {decoded : Option Decoded} {result : Option Fetched}
    (supplies : Supplies before stock fetched decoded result after reached)
    (follows : before.Follows source stock state) (carries : before.Carries stock)
    (traced : Traced source kind room before stock) (latch : stock.latch = some fetched) :
    after.Follows source reached state := by
  have settled := supplies.traced carries latch traced
  cases supplies with
  | issued issues fetches =>
    rename_i packet next middle
    have place : packet.location = stock.position :=
      issues.location.trans (carries.latched fetched latch).1
    have awake := carries.asleep
    have trained := traced.trained
    rw [← issues.predictor] at awake trained
    rw [latch] at awake
    -- Only from the location of a branch does a predictor send fetch elsewhere,
    -- and the packet is what was decoded from that location.
    have onward : packet.isBranch = false → next.location = packet.location + 1 := by
      intro none
      have origin := settled.packets packet (by simp)
      have branching := issues.genuine.isBranch_iff_branching origin
      rw [none, place] at branching
      rw [place]
      exact (fetches.predictor trained awake).2.1 fun branch => nomatch branching.mpr branch
    refine ⟨?_, follows.text, follows.running, ?_, ?_, follows.straight.append place onward⟩
    · exact (issues.untouched.agrees.trans fetches.agrees).symm.trans follows.agrees
    · exact follows.counter.trans (headLocation_append place).symm
    · exact follows.rest.trans (begun_append issues.fresh).symm
  | deferred defers =>
    rw [defers.after_eq]
    exact ⟨follows.agrees, follows.text, follows.running, follows.counter, follows.rest,
      follows.straight⟩

/-- A fetch after a redirect brings what the sequential machine executes
next. -/
theorem Fetches.follows (fetches : Fetches before stock.position fetched after)
    (follows : before.Follows source stock state) (idle : stock.packets = [])
    (asleep : before.predictor.stalled = true) :
    after.Follows source ⟨[], some fetched, fetched.location⟩ state := by
  have counter := follows.counter
  have rest := follows.rest
  rw [idle] at counter rest
  refine ⟨fetches.agrees.symm.trans follows.agrees, follows.text, follows.running, ?_, rest,
    trivial⟩
  exact counter.trans (fetches.predictor_of_stalled asleep).1.symm

/-! ## From cycle to cycle -/

/-- The processor and the sequential machine agree, and as long as the program
runs, the one follows the other with this stock. -/
structure MatchesWith (source : Memory) (processor : Processor) (stock : Stock)
    (state : Sequential) : Prop where
  agrees : processor.machine.Agrees state.machine
  running : state.running = processor.running
  follows : processor.running = true → processor.Follows source stock state

theorem Follows.matchesWith (follows : before.Follows source stock state)
    (running : before.running = true) : before.MatchesWith source stock state :=
  ⟨follows.agrees, follows.running.trans running.symm, fun _ => follows⟩

/-- The sequential machine takes as many steps as the cycle executes
micro-operations: none, or the same one. -/
theorem Turns.next {trace : CycleTrace} (turns : Turns before stock trace after reached)
    (stocked : before.Stocked stock) (traced : Traced source kind room before stock)
    (follows : before.Follows source stock state) (ordinary : source.Ordinary)
    (running : before.running = true)
    (spares : trace.executed.isSome = true → state.storesText = false) :
    (trace.executed = none ∧ after.MatchesWith source reached state) ∨
      ∃ op moved, trace.executed = some op ∧
        Sequential.step.Yields state (op.marked false) moved ∧
        after.MatchesWith source reached moved := by
  have carries := stocked.toCarries
  cases turns with
  | refetched idle lost fetches =>
    have asleep := carries.asleep
    rw [lost] at asleep
    refine Or.inl ⟨rfl, (fetches.follows follows idle asleep).finish.matchesWith ?_⟩
    exact fetches.course.running.trans running
  | refilled idle latch supplies =>
    refine Or.inl ⟨rfl, (supplies.follows follows carries traced latch).finish.matchesWith ?_⟩
    exact supplies.course.running.trans running
  | acted packets front latch plain acts supplies =>
    rename_i packet op rest later fetched middle decoded result final
    have genuine := carries.genuine_head packets
    rcases acts.follows follows carries traced ordinary packets front plain (spares rfl) with
        ⟨moved, steps, led⟩
    have kept := acts.carries carries packets front
    have known := traced.acted ordinary.sparesBounds packets front genuine acts
    refine Or.inr ⟨op, moved, rfl, steps,
      (supplies.follows led kept known latch).finish.matchesWith ?_⟩
    exact supplies.course.running.trans (acts.running.trans running)
  | confirmed packets front latch branches right confirms supplies =>
    rename_i packet next op others resolution fetched middle decoded result final
    rcases confirms.follows follows carries traced ordinary packets front branches right with
        ⟨moved, steps, led⟩
    have kept := confirms.carries carries packets front
    have branching := traced.branching packets (carries.genuine_head packets) front branches
    have known := traced.confirmed packets branching confirms
    refine Or.inr ⟨op, moved, rfl, steps,
      (supplies.follows led kept known latch).finish.matchesWith ?_⟩
    exact supplies.course.running.trans (confirms.running.trans running)
  | redirected packets front branches wrong redirects =>
    rename_i packet next op others resolution final
    rcases redirects.follows follows carries traced ordinary packets front branches with
        ⟨moved, steps, led⟩
    refine Or.inr ⟨op, moved, rfl, steps, led.finish.matchesWith ?_⟩
    exact redirects.running.trans running
  | exited packets front calls exits =>
    rename_i packet op rest later final
    rcases exits.follows follows carries traced ordinary packets front calls (spares rfl) with
        ⟨moved, steps, agrees, stopped⟩
    refine Or.inr ⟨op, moved, rfl, steps, agrees, stopped.trans exits.running.symm, ?_⟩
    intro still
    replace still := exits.running.symm.trans still
    cases still

/-- The processor and the sequential machine agree, and as long as the program
runs, the one follows the other. -/
structure Matches (source : Memory) (kind : PredictorKind) (room : Nat) (processor : Processor)
    (state : Sequential) : Prop where
  agrees : processor.machine.Agrees state.machine
  running : state.running = processor.running
  follows : processor.running = true → ∃ stock, processor.Stocked stock ∧
    Traced source kind room processor stock ∧ processor.Follows source stock state

/-- A cycle leaves everything in order for the next one. -/
theorem Turns.matches {trace : CycleTrace} (turns : Turns before stock trace after reached)
    (stocked : before.Stocked stock) (traced : Traced source kind room before stock)
    (ordinary : source.Ordinary) (matched : after.MatchesWith source reached state) :
    after.Matches source kind room state where
  agrees := matched.agrees
  running := matched.running
  follows running := ⟨reached, turns.stocked stocked running,
    turns.traced stocked traced ordinary.sparesBounds, matched.follows running⟩

/-! ## All cycles of a run -/

/-- The micro-operations that were executed, in order. -/
def executed (traces : List CycleTrace) : List MicroOp := traces.filterMap (·.executed)

theorem executed_append_of_none {traces : List CycleTrace} {trace : CycleTrace}
    (idle : trace.executed = none) : executed (traces ++ [trace]) = executed traces := by
  simp [executed, idle]

theorem executed_append_of_some {traces : List CycleTrace} {trace : CycleTrace}
    (busy : trace.executed = some op) : executed (traces ++ [trace]) = executed traces ++ [op] := by
  simp [executed, busy]

section

variable {configuration : Configuration} {executable : Executable} {output : Output}
  {start : Processor}

/-- What is ordinary in the executable is ordinary in the loaded memory. -/
theorem Loaded.ordinary (loaded : Loaded configuration kind executable output start)
    (ordinary : executable.Ordinary) : start.machine.memory.Ordinary where
  plain location token fetched := by
    rcases loaded.tokenAt fetched with rfl | found
    · decide
    · exact ordinary.plain location token found
  sparesBounds := loaded.sparesBounds ordinary.sparesBounds
  visible group expands op member := by
    rcases loaded.decodes expands with decodes | ⟨width, speculative, rfl⟩
    · exact ordinary.visible group decodes op member
    · rw [List.mem_singleton.mp member]
      intro operand named
      cases named

/-- A new processor and a sequential machine that starts on the same machine. -/
theorem follows_start : start.Follows start.machine.memory
    ⟨[], none, executable.textSection.start.toUInt64⟩
    (.start start.machine executable.textSection) :=
  ⟨.refl _, fun _ => rfl, rfl, rfl, rfl, trivial⟩

theorem Loaded.matches (loaded : Loaded configuration kind executable output start) :
    start.Matches start.machine.memory kind configuration.outstandingCapacity
      (.start start.machine executable.textSection) where
  agrees := .refl _
  running := loaded.running.symm
  follows _ := ⟨_, loaded.stocked, loaded.traced, follows_start⟩

/-- One cycle more is as many steps more as it executes micro-operations. -/
theorem Matches.next {trace : CycleTrace} {flow : Flow}
    (matched : before.Matches source kind room state) (ordinary : source.Ordinary)
    (ran : before.runCycle = (.ok (trace, flow), after))
    (spares : trace.executed.isSome = true → state.storesText = false) :
    (trace.executed = none ∧ after.Matches source kind room state) ∨
      ∃ op moved, trace.executed = some op ∧ state.running = true ∧
        Sequential.step.Yields state (op.marked false) moved ∧
        after.Matches source kind room moved := by
  cases running : before.running with
  | true =>
    rcases matched.follows running with ⟨stock, stocked, traced, follows⟩
    rcases stocked.turns running ran with ⟨reached, turns⟩
    rcases turns.next stocked traced follows ordinary running spares with
        ⟨idle, matched⟩ | ⟨op, moved, busy, steps, matched⟩
    · exact Or.inl ⟨idle, turns.matches stocked traced ordinary matched⟩
    · exact Or.inr ⟨op, moved, busy, follows.running, steps,
        turns.matches stocked traced ordinary matched⟩
  | false =>
    rw [runCycle_of_stopped running] at ran
    cases ran
    exact Or.inl ⟨rfl, matched⟩

theorem Loaded.matches_of_runCycles {count : Nat} {traces : List CycleTrace}
    (loaded : Loaded configuration kind executable output start) (ordinary : executable.Ordinary)
    (ran : start.runCycles count = .ok (traces, after))
    (keeps : (Sequential.start start.machine executable.textSection).KeepsText
      (executed traces).length) :
    ∃ final, (Sequential.start start.machine executable.textSection).run (executed traces).length =
        .ok ((executed traces).map (·.marked false), final) ∧
      after.Matches start.machine.memory kind configuration.outstandingCapacity final := by
  induction count generalizing traces after with
  | zero =>
    cases ran
    exact ⟨_, rfl, loaded.matches⟩
  | succ count inductionHypothesis =>
    rcases runCycles_succ.mp ran with ⟨earlier, before, trace, flow, shorter, once, rfl⟩
    have fewer : (executed earlier).length ≤ (executed (earlier ++ [trace])).length := by
      simp [executed]
    rcases inductionHypothesis shorter (keeps.of_le fewer) with ⟨state, followed, matched⟩
    have spared : trace.executed.isSome = true → state.storesText = false := by
      intro busy
      rcases Option.isSome_iff_exists.mp busy with ⟨op, busy⟩
      refine keeps _ ?_ _ state followed
      rw [executed_append_of_some busy, List.length_append]
      exact Nat.lt_succ_self _
    rcases matched.next (loaded.ordinary ordinary) once spared with
        ⟨idle, matched⟩ | ⟨op, moved, busy, running, steps, matched⟩
    · rw [executed_append_of_none idle]
      exact ⟨state, followed, matched⟩
    · rw [executed_append_of_some busy, List.length_append, List.length_singleton, List.map_append]
      exact ⟨moved, Sequential.run_succ followed running steps, matched⟩

/-- The pipeline refines the sequential machine.  After any run in which no
cycle has failed, with any predictor and any sizes of the buffers, the
micro-operations that were executed are the first ones that the sequential
machine executes, but for their marks of speculation.  All that the program can
see is then the same in both: its registers, the flags, the memory and the
output; and either both have ended or none. -/
theorem refines_sequential {reached : Processor} {count : Nat} {traces : List CycleTrace}
    (loads : load configuration kind executable output = .ok start)
    (ordinary : executable.Ordinary) (ran : start.runCycles count = .ok (traces, reached))
    (keeps : (Sequential.start start.machine executable.textSection).KeepsText
      (executed traces).length) :
    ∃ final, (Sequential.start start.machine executable.textSection).run (executed traces).length =
        .ok ((executed traces).map (·.marked false), final) ∧
      reached.machine.Agrees final.machine ∧ final.running = reached.running := by
  rcases (loaded_of_load loads).matches_of_runCycles ordinary ran keeps with
      ⟨final, followed, matched⟩
  exact ⟨final, followed, matched.agrees, matched.running⟩

end

/-- Counts down from two in a loop and keeps a copy of the count in memory. -/
def countdown : Executable :=
  .ofParts ["mov rcx 2", "dec rcx", "mov [9] rcx", "cmp rcx 0", "jne 3", "mov rax 60", "syscall"]
    [5]

theorem countdown_ordinary : countdown.Ordinary :=
  Executable.ordinary_of_listed (by decide) (by decide +kernel) (by decide +kernel)

/-- Both branches of the loop are predicted badly, and yet the processor ends
with the machine that the sequential one ends with. -/
theorem refines_sequential_countdown :
    ∃ start traces reached final,
      load { memorySize := 10 } .gshare countdown .accepting = .ok start ∧
      start.runCycles 29 = .ok (traces, reached) ∧ reached.record.mispredicted.size = 2 ∧
      (Sequential.start start.machine countdown.textSection).run 23 =
        .ok ((executed traces).map (·.marked false), final) ∧
      reached.machine.Agrees final.machine ∧ final.running = false := by
  have computed : (runLoaded { memorySize := 10 } .gshare countdown .accepting 29).toOption.any
      (fun ends => decide (ends.2.running = false ∧ (executed ends.1).length = 23 ∧
        ends.2.record.mispredicted.size = 2)) = true := by
    decide +kernel
  have checked : (load { memorySize := 10 } .gshare countdown .accepting).toOption.any
      (fun start => (List.range 23).all fun earlier =>
        ((Sequential.start start.machine countdown.textSection).run earlier).toOption.all
          fun reached => !reached.2.storesText) = true := by
    decide +kernel
  rcases exists_of_runLoaded computed with ⟨start, traces, reached, loads, ran, ends⟩
  rcases of_decide_eq_true ends with ⟨stopped, length, missed⟩
  rw [loads] at checked
  have keeps := Sequential.keepsText_of_check checked
  rw [← length] at keeps
  rcases refines_sequential loads countdown_ordinary ran keeps with
      ⟨final, followed, agrees, running⟩
  rw [length] at followed
  exact ⟨start, traces, reached, final, loads, ran, missed, followed, agrees,
    running.trans stopped⟩

end Processor
end BranchPipeline
