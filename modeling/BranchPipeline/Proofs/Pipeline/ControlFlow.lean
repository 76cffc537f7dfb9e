import BranchPipeline.Proofs.Pipeline.FetchOrder
import BranchPipeline.Proofs.Pipeline.Refinement
import BranchPipeline.Proofs.Pipeline.Retirement

namespace BranchPipeline

open Attempt

/-!
# Where execution goes on

Only a branch compares the location of its successor with the address at which
the program goes on.  Behind any other instruction the next one is right
because nothing has been learned of its location: what a predictor has been
taught are the locations of branches that were executed.  A program that moves
the bounds of its text section can turn such a location into another
instruction, and then a prediction that nobody checks leads execution astray.
For all other locations, and in all programs that spare the bounds, execution
goes on where it should.
-/

/-- A branch at the location has been executed, and the scheme takes note of
branches. -/
def Taught (kind : PredictorKind) (retired : List Retirement) (location : UInt64) : Prop :=
  kind ≠ .alwaysNotTaken ∧
    ∃ earlier ∈ retired, earlier.branches = true ∧ earlier.location = location

/-- What comes next is right behind this part: it is the following one of the
same group, or else the first one of the instruction at which the program goes
on. -/
structure Retirement.LeadsTo (last : Retirement) (taught : UInt64 → Prop) (next : Part) : Prop where
  within : ¬ last.IsLast → next = last.following
  first : last.IsLast → next.index = 0
  branch : last.IsLast → last.branches = true → next.location = last.onward
  plain : last.IsLast → (∀ op ∈ last.group, op.opcode ≠ .jump) → ¬ taught last.location →
    next.location = last.location + 1

/-- Each part leads to the next one, as far as its location had not been taught
before. -/
def Linked (kind : PredictorKind) (retired : List Retirement) : Prop :=
  ∀ place last next, retired[place]? = some last → retired[place + 1]? = some next →
    last.LeadsTo (Taught kind (retired.take place)) next.toPart

/-- The last part leads to this one. -/
def Reaches (kind : PredictorKind) (retired : List Retirement) (next : Part) : Prop :=
  ∀ last, retired.getLast? = some last → last.LeadsTo (Taught kind retired.dropLast) next

/-- What is executed next with these packets in flight, and with `position`
behind them. -/
def upcoming (position : UInt64) : List Packet → Part
  | [] => ⟨position, [], 0⟩
  | packet :: _ => packet.firstPart

/-- A packet without a branch is followed by the instruction behind it, unless
its location has been taught. -/
def StraightUnless (taught : UInt64 → Prop) (position : UInt64) : List Packet → Prop
  | [] => True
  | packet :: later =>
    (packet.isBranch = false → ¬ taught packet.location →
      headLocation position later = packet.location + 1) ∧
      StraightUnless taught position later

section

variable {kind : PredictorKind} {retired : List Retirement} {retirement last : Retirement}
  {taught more : UInt64 → Prop} {position next : UInt64} {packet : Packet} {packets : List Packet}

/-! ## What has been taught -/

theorem Taught.append {location : UInt64} (known : Taught kind retired location)
    (retirement : Retirement) : Taught kind (retired ++ [retirement]) location := by
  rcases known with ⟨learns, earlier, member, known⟩
  exact ⟨learns, earlier, List.mem_append_left _ member, known⟩

theorem taught_append (learns : kind ≠ .alwaysNotTaken) (branches : retirement.branches = true) :
    Taught kind (retired ++ [retirement]) retirement.location :=
  ⟨learns, retirement, by simp, branches, rfl⟩

theorem Strategy.Trained.mono {strategy : Strategy} {room : Nat}
    (trained : strategy.Trained kind taught room)
    (wider : ∀ location, taught location → more location) : strategy.Trained kind more room where
  kind := trained.kind
  confined targets same source stored := wider source (trained.confined targets same source stored)
  recalls := trained.recalls

/-- The outcome of a branch keeps a scheme trained also if it takes no note of
branches. -/
theorem Predictor.Trained.update {before after : Predictor} {room : Nat} {source target : UInt64}
    {taken : Bool} (trained : before.Trained kind taught room)
    (noted : kind ≠ .alwaysNotTaken → taught source)
    (updates : (Predictor.update source target taken).Yields before () after) :
    after.Trained kind taught room := by
  by_cases learns : kind = .alwaysNotTaken
  · rcases Predictor.yields_update.mp updates with ⟨strategy, updated, rfl⟩
    have same := trained.kind.trans learns
    cases scheme : before.strategy with
    | alwaysNotTaken =>
      rw [scheme] at updated
      cases updated
      exact scheme ▸ trained
    | alwaysTaken | oneBit | twoBit | gshare =>
      rw [scheme] at same
      cases same
  · rcases Predictor.Trained.exists_update trained (noted learns) target taken with
        ⟨reached, yields, kept, -⟩
    rcases yields.unique updates with ⟨-, rfl⟩
    exact kept

theorem Predictor.Trained.stall {before after : Predictor} {room : Nat}
    (trained : before.Trained kind taught room)
    (stalls : Predictor.stall.Yields before () after) : after.Trained kind taught room := by
  rcases Predictor.Trained.exists_stall trained with ⟨reached, yields, kept, -⟩
  rcases yields.unique stalls with ⟨-, rfl⟩
  exact kept

/-! ## The straight path -/

theorem StraightUnless.mono (straight : StraightUnless taught position packets)
    (wider : ∀ location, taught location → more location) :
    StraightUnless more position packets := by
  induction packets with
  | nil => trivial
  | cons packet later inductionHypothesis =>
    exact ⟨fun none untaught => straight.1 none fun known => untaught (wider _ known),
      inductionHypothesis straight.2⟩

/-- A packet that stands where the others end may lead on to a new end. -/
theorem StraightUnless.append (straight : StraightUnless taught position packets)
    (place : packet.location = position)
    (onward : packet.isBranch = false → ¬ taught packet.location → next = packet.location + 1) :
    StraightUnless taught next (packets ++ [packet]) := by
  induction packets with
  | nil => exact ⟨onward, trivial⟩
  | cons first later inductionHypothesis =>
    refine ⟨?_, inductionHypothesis straight.2⟩
    show first.isBranch = false → _ → headLocation next (later ++ [packet]) = first.location + 1
    rw [headLocation_append place]
    exact straight.1

theorem StraightUnless.advance {op : MicroOp} {rest : List MicroOp}
    (straight : StraightUnless taught position (packet :: packets))
    (front : packet.waiting = op :: rest) (plain : op.opcode ≠ .jump) :
    StraightUnless taught position (advance packet op rest packets) := by
  rw [BranchPipeline.advance]
  split
  · exact straight.2
  · refine ⟨?_, straight.2⟩
    intro none
    apply straight.1
    rw [Packet.isBranch_eq_any front plain]
    exact none

/-! ## What comes next -/

theorem location_upcoming :
    (upcoming position packets).location = headLocation position packets := by
  cases packets <;> rfl

theorem index_upcoming (fresh : ∀ packet ∈ packets, packet.executed = []) :
    (upcoming position packets).index = 0 := by
  cases packets with
  | nil => rfl
  | cons packet later =>
    rw [upcoming, Packet.firstPart, fresh packet List.mem_cons_self, List.length_nil]

/-- What is issued behind all others comes next where nothing else was in
flight. -/
theorem Retirement.LeadsTo.append (leads : last.LeadsTo taught (upcoming position packets))
    (place : packet.location = position) (fresh : packet.executed = []) :
    last.LeadsTo taught (upcoming next (packets ++ [packet])) := by
  cases packets with
  | cons first later => exact leads
  | nil =>
    refine ⟨?_, ?_, ?_, ?_⟩
    · intro more
      exact absurd (congrArg Part.index (leads.within more)).symm (Nat.succ_ne_zero _)
    · intro _
      exact congrArg List.length fresh
    · intro ended branches
      exact place.trans (leads.branch ended branches)
    · intro ended plain untaught
      exact place.trans (leads.plain ended plain untaught)

theorem Linked.append (linked : Linked kind retired)
    (reaches : Reaches kind retired retirement.toPart) : Linked kind (retired ++ [retirement]) := by
  intro place last next found behind
  rcases getElem?_append_singleton behind with behind | ⟨ends, rfl⟩
  · have inside := (List.getElem?_eq_some_iff.mp behind).1
    rw [List.getElem?_append_left (by omega)] at found
    rw [List.take_append_of_le_length (by omega)]
    exact linked place last next found behind
  · rw [List.getElem?_append_left (by omega)] at found
    rw [List.take_append_of_le_length (by omega)]
    have latest : place = retired.length - 1 := by omega
    rw [latest, ← List.dropLast_eq_take]
    rw [latest, ← List.getLast?_eq_getElem?] at found
    exact reaches last found

end

namespace Processor

/-- The ledger has waiting what is in flight; the predictor has been taught
branches that were executed, and execution goes on where it should, but behind
them. -/
structure Chained (kind : PredictorKind) (room : Nat) (ledger : Ledger) (processor : Processor)
    (stock : Stock) : Prop where
  waiting : ledger.waiting = stock.packets.flatMap Packet.parts
  trained : processor.predictor.Trained kind (Taught kind ledger.retired) room
  straight : StraightUnless (Taught kind ledger.retired) stock.position stock.packets
  linked : Linked kind ledger.retired
  reaches : Reaches kind ledger.retired (upcoming stock.position stock.packets)

variable {before after : Processor} {stock reached : Stock} {fetched : Fetched}
  {kind : PredictorKind} {room : Nat} {ledger : Ledger} {packet : Packet} {op : MicroOp}
  {rest : List MicroOp} {later : List Packet}

theorem Chained.finish (chained : Chained kind room ledger before stock) :
    Chained kind room ledger before.finish stock :=
  ⟨chained.waiting, chained.trained, chained.straight, chained.linked, chained.reaches⟩

/-- Decode and fetch extend the chain. -/
theorem Supplies.chained {decoded : Option Decoded} {result : Option Fetched}
    (supplies : Supplies before stock fetched decoded result after reached)
    (chained : Chained kind room ledger before stock) (carries : before.Carries stock)
    (latch : stock.latch = some fetched) :
    Chained kind room (ledger.issue decoded) after reached := by
  cases supplies with
  | issued issues fetches =>
    rename_i packet next middle
    have place : packet.location = stock.position :=
      issues.location.trans (carries.latched fetched latch).1
    have awake := carries.asleep
    have trained := chained.trained
    rw [← issues.predictor] at awake trained
    rw [latch] at awake
    rcases trained.predict awake fetches.predicts with ⟨kept, straight, -⟩
    refine ⟨Ledger.waiting_issue chained.waiting issues.fresh _, kept, ?_, chained.linked, ?_⟩
    · refine chained.straight.append place ?_
      intro _ untaught
      rw [place] at untaught ⊢
      exact straight untaught
    · intro last latest
      exact (chained.reaches last latest).append place issues.fresh
  | deferred defers =>
    rw [defers.after_eq]
    exact ⟨chained.waiting, chained.trained, chained.straight, chained.linked, chained.reaches⟩

/-- The fetch after a redirect goes where execution goes on. -/
theorem Fetches.chained (fetches : Fetches before stock.position fetched after)
    (chained : Chained kind room ledger before stock) (idle : stock.packets = [])
    (asleep : before.predictor.stalled = true) :
    Chained kind room ledger after ⟨[], some fetched, fetched.location⟩ := by
  rcases fetches.predictor_of_stalled asleep with ⟨aimed, same⟩
  have waiting := chained.waiting
  have reaches := chained.reaches
  rw [idle] at waiting reaches
  refine ⟨waiting, ?_, trivial, chained.linked, aimed ▸ reaches⟩
  show Strategy.Trained _ _ _ _
  rw [same]
  exact chained.trained

/-- Whatever is executed next is linked to what was executed before. -/
theorem Chained.linked_retire (chained : Chained kind room ledger before stock)
    (packets : stock.packets = packet :: later) (machine : Machine) :
    Linked kind (ledger.retired ++ [packet.retirement machine]) := by
  refine chained.linked.append ?_
  intro last latest
  have leads := chained.reaches last latest
  rw [packets] at leads
  exact leads

/-- A micro-operation that is not a branch is followed by the next one of its
group or by the next instruction. -/
theorem leadsTo_of_plain {taught : UInt64 → Prop} {position : UInt64} (machine : Machine)
    (front : packet.waiting = op :: rest) (plain : op.opcode ≠ .jump)
    (straight : StraightUnless taught position (packet :: later))
    (fresh : ∀ packet ∈ later, packet.executed = []) :
    (packet.retirement machine).LeadsTo taught
      (upcoming position (advance packet op rest later)) := by
  have ended : (packet.retirement machine).IsLast ↔ rest = [] :=
    Packet.isLast_firstPart_iff front
  rw [advance]
  refine ⟨?_, ?_, ?_, ?_⟩
  · intro more
    rw [if_neg (mt ended.mpr more)]
    exact Packet.firstPart_stepped front
  · intro last
    rw [if_pos (ended.mp last)]
    exact index_upcoming fresh
  · intro _ branches
    rw [Packet.branches_retirement front, beq_iff_eq] at branches
    exact absurd branches plain
  · intro last _ untaught
    have done := ended.mp last
    rw [if_pos done, location_upcoming]
    refine straight.1 ?_ untaught
    rw [Packet.isBranch_eq_any front plain, done]
    rfl

/-- A branch is followed by the instruction at which the program goes on. -/
theorem leadsTo_of_branch {taught : UInt64 → Prop} {next : Part} {machine changed : Machine}
    {resolution : Machine.Resolution} (front : packet.waiting = [op])
    (branches : op.opcode = .jump)
    (resolves : (Machine.resolve op packet.location).Yields machine resolution changed)
    (first : next.index = 0) (right : next.location = resolution.next) :
    (packet.retirement machine).LeadsTo taught next := by
  have found := Packet.op?_retirement front machine
  have last : (packet.retirement machine).IsLast := (Packet.isLast_firstPart_iff front).mpr rfl
  refine ⟨?_, fun _ => first, ?_, ?_⟩
  · intro more
    exact absurd last more
  · intro _ _
    exact right.trans (Retirement.onward_of_resolve found branches resolves).symm
  · intro _ plain
    have member : op ∈ packet.executed ++ packet.waiting := by simp [front]
    exact absurd branches (plain op member)

theorem reaches_append {retired : List Retirement} {retirement : Retirement} {next : Part}
    (leads : retirement.LeadsTo (Taught kind retired) next) :
    Reaches kind (retired ++ [retirement]) next := by
  intro last latest
  rw [List.getLast?_concat] at latest
  cases latest
  rw [List.dropLast_concat]
  exact leads

theorem Acts.chained (acts : Acts before op after)
    (chained : Chained kind room ledger before stock) (carries : before.Carries stock)
    (packets : stock.packets = packet :: later) (front : packet.waiting = op :: rest)
    (plain : op.opcode ≠ .jump) :
    Chained kind room (ledger.retire before.machine) after
      { stock with packets := advance packet op rest later } := by
  have waiting := chained.waiting
  have straight := chained.straight
  have fresh := carries.fresh
  rw [packets] at waiting straight fresh
  rw [Ledger.retire_of_packets waiting front]
  have wider : ∀ location, Taught kind ledger.retired location → _ :=
    fun _ known => known.append (packet.retirement before.machine)
  refine ⟨rfl, ?_, (straight.advance front plain).mono wider,
    chained.linked_retire packets _, reaches_append (leadsTo_of_plain _ front plain straight fresh)⟩
  rw [acts.predictor]
  exact Strategy.Trained.mono chained.trained wider

/-- A predictor that is told of the branch that retires has been taught it. -/
theorem Chained.learns {told : Predictor} {target : UInt64} {taken : Bool}
    (chained : Chained kind room ledger before stock) (front : packet.waiting = [op])
    (branches : op.opcode = .jump)
    (updates : (Predictor.update packet.location target taken).Yields before.predictor () told) :
    told.Trained kind (Taught kind (ledger.retired ++ [packet.retirement before.machine])) room := by
  have jumps : (packet.retirement before.machine).branches = true := by
    rw [Packet.branches_retirement front, branches]
    rfl
  have trained := Strategy.Trained.mono chained.trained
    fun _ known => known.append (packet.retirement before.machine)
  exact Predictor.Trained.update trained (taught_append · jumps) updates

theorem Confirms.chained {next : Packet} {resolution : Machine.Resolution}
    (confirms : Confirms before packet.location op resolution after)
    (chained : Chained kind room ledger before stock) (carries : before.Carries stock)
    (packets : stock.packets = packet :: next :: later) (front : packet.waiting = [op])
    (branches : op.opcode = .jump) (right : next.location = resolution.next) :
    Chained kind room (ledger.retire before.machine) after
      { stock with packets := next :: later } := by
  have waiting := chained.waiting
  have straight := chained.straight
  have fresh := carries.fresh
  rw [packets] at waiting straight fresh
  rw [Ledger.retire_of_packets waiting front]
  refine ⟨rfl, chained.learns front branches confirms.updates, ?_,
    chained.linked_retire packets _, ?_⟩
  · exact straight.2.mono fun _ known => known.append (packet.retirement before.machine)
  · exact reaches_append
      (leadsTo_of_branch front branches confirms.resolves (index_upcoming fresh) right)

theorem Redirects.chained {resolution : Machine.Resolution}
    (redirects : Redirects before packet.location op resolution after)
    (chained : Chained kind room ledger before stock)
    (packets : stock.packets = packet :: later) (front : packet.waiting = [op])
    (branches : op.opcode = .jump) :
    Chained kind room (ledger.retire before.machine).drop after ⟨[], none, resolution.next⟩ := by
  have waiting := chained.waiting
  rw [packets] at waiting
  rw [Ledger.retire_of_packets waiting front]
  rcases redirects.updates with ⟨taught, updates, stalls⟩
  rcases redirects.resolves with ⟨machine, resolves, -⟩
  refine ⟨rfl, ?_, trivial, chained.linked_retire packets _, ?_⟩
  · exact (chained.learns front branches updates).stall stalls
  · exact reaches_append (leadsTo_of_branch front branches resolves rfl rfl)

/-! ## From cycle to cycle -/

/-- As long as the program has not exited, a cycle keeps the chain. -/
theorem Turns.chained {trace : CycleTrace} (turns : Turns before stock trace after reached)
    (chained : Chained kind room ledger before stock) (stocked : before.Stocked stock)
    (running : after.running = true) :
    Chained kind room (ledger.note before.machine trace) after reached := by
  have carries := stocked.toCarries
  cases turns with
  | refetched idle lost fetches =>
    have asleep := carries.asleep
    rw [lost] at asleep
    exact (fetches.chained chained idle asleep).finish
  | refilled idle latch supplies => exact (supplies.chained chained carries latch).finish
  | acted packets front latch plain acts supplies =>
    have kept := acts.carries carries packets front
    exact (supplies.chained (acts.chained chained carries packets front plain) kept latch).finish
  | confirmed packets front latch branches right confirms supplies =>
    have kept := confirms.carries carries packets front
    exact (supplies.chained (confirms.chained chained carries packets front branches right) kept
      latch).finish
  | redirected packets front branches wrong redirects =>
    exact (redirects.chained chained packets front branches).finish
  | exited packets front calls exits =>
    replace running := exits.running.symm.trans running
    cases running

/-- What a cycle executes is the first part that waits, and the ledger takes
note of it. -/
theorem Turns.retires {trace : CycleTrace} (turns : Turns before stock trace after reached)
    (waiting : ledger.waiting = stock.packets.flatMap Packet.parts) :
    (trace.executed = none ∧ (ledger.note before.machine trace).retired = ledger.retired) ∨
      ∃ packet op rest later, trace.executed = some op ∧ stock.packets = packet :: later ∧
        packet.waiting = op :: rest ∧
        (ledger.note before.machine trace).retired =
          ledger.retired ++ [packet.retirement before.machine] := by
  have retired {packet : Packet} {op : MicroOp} {rest : List MicroOp} {later : List Packet}
      (packets : stock.packets = packet :: later) (front : packet.waiting = op :: rest) :
      (ledger.retire before.machine).retired =
        ledger.retired ++ [packet.retirement before.machine] := by
    rw [packets] at waiting
    rw [Ledger.retire_of_packets waiting front]
  cases turns with
  | refetched idle lost fetches => exact Or.inl ⟨rfl, rfl⟩
  | refilled idle latch supplies => exact Or.inl ⟨rfl, Ledger.retired_issue _ _⟩
  | acted packets front latch plain acts supplies =>
    exact Or.inr ⟨_, _, _, _, rfl, packets, front,
      (Ledger.retired_issue _ _).trans (retired packets front)⟩
  | confirmed packets front latch branches right confirms supplies =>
    exact Or.inr ⟨_, _, _, _, rfl, packets, front,
      (Ledger.retired_issue _ _).trans (retired packets front)⟩
  | redirected packets front branches wrong redirects =>
    exact Or.inr ⟨_, _, _, _, rfl, packets, front, retired packets front⟩
  | exited packets front calls exits =>
    exact Or.inr ⟨_, _, _, _, rfl, packets, front, retired packets front⟩

end Processor

/-! ## A run -/

/-- The group is what the memory `source` has at the location. -/
def Part.StemsFrom (part : Part) (source : Memory) : Prop :=
  ∃ token speculative, source.instructionAt part.location = .ok token ∧
    Instruction.expand token speculative = .ok part.group

/-- Where the instructions do not change, an instruction without a branch has
not been taught. -/
theorem Part.StemsFrom.untaught {source : Memory} {kind : PredictorKind} {part : Part}
    {retired : List Retirement} (stems : part.StemsFrom source)
    (sourced : ∀ retirement ∈ retired, retirement.StemsFrom source)
    (plain : ∀ op ∈ part.group, op.opcode ≠ .jump) : ¬ Taught kind retired part.location := by
  rintro ⟨-, earlier, member, branches, same⟩
  rcases sourced earlier member with ⟨token, speculative, origin, expanded⟩
  rw [Retirement.branches, Option.any_eq_true] at branches
  rcases branches with ⟨op, found, jumps⟩
  have branching : source.Branching part.location := by
    rw [← same, Memory.branching_iff origin expanded]
    exact ⟨op, List.mem_of_getElem? found, beq_iff_eq.mp jumps⟩
  rcases stems with ⟨token, speculative, origin, expanded⟩
  rcases (Memory.branching_iff origin expanded).mp branching with ⟨op, member, jumps⟩
  exact plain op member jumps

namespace Processor

variable {configuration : Configuration} {kind : PredictorKind} {executable : Executable}
  {output : Output} {start before after : Processor} {source : Memory} {room : Nat}
  {ledger : Ledger} {traces : List CycleTrace} {trace : CycleTrace} {flow : Flow}

/-- What is known after a run: the ledger has retired what was executed, each
part where the one before leads to, and as long as the program runs the chain
goes on. -/
structure Recorded (source : Memory) (kind : PredictorKind) (room : Nat) (ledger : Ledger)
    (traces : List CycleTrace) (processor : Processor) : Prop where
  ops : ledger.retired.map Retirement.op? = (executed traces).map some
  linked : Linked kind ledger.retired
  sourced : source.SparesBounds → ∀ retirement ∈ ledger.retired, retirement.StemsFrom source
  chained : processor.running = true → ∃ stock, processor.Stocked stock ∧
    Chained kind room ledger processor stock ∧
    (source.SparesBounds → Traced source kind room processor stock)

theorem Loaded.recorded (loaded : Loaded configuration kind executable output start) :
    start.Recorded start.machine.memory kind configuration.outstandingCapacity {} [] := by
  refine ⟨rfl, ?_, ?_, ?_⟩
  · exact fun _ _ _ lost => nomatch lost
  · exact fun _ _ member => nomatch member
  · intro _
    refine ⟨_, loaded.stocked, ⟨rfl, ?_, trivial, ?_, ?_⟩, fun _ => loaded.traced⟩
    · exact (Predictor.trained_of_create loaded.predictor _).2.1
    · exact fun _ _ _ lost => nomatch lost
    · exact fun _ lost => nomatch lost

theorem Recorded.next (recorded : before.Recorded source kind room ledger traces)
    (ran : before.runCycle = (.ok (trace, flow), after)) :
    after.Recorded source kind room (ledger.note before.machine trace) (traces ++ [trace]) := by
  cases running : before.running with
  | true =>
    rcases recorded.chained running with ⟨stock, stocked, chained, traced⟩
    rcases stocked.turns running ran with ⟨reached, turns⟩
    have chain : after.running = true → ∃ stock, after.Stocked stock ∧
        Chained kind room (ledger.note before.machine trace) after stock ∧
        (source.SparesBounds → Traced source kind room after stock) :=
      fun still => ⟨reached, turns.stocked stocked still, turns.chained chained stocked still,
        fun spares => turns.traced stocked (traced spares) spares⟩
    rcases turns.retires chained.waiting with
        ⟨idle, same⟩ | ⟨packet, op, rest, later, busy, packets, front, more⟩
    · refine ⟨?_, ?_, ?_, chain⟩
      · rw [same, executed_append_of_none idle, recorded.ops]
      · rw [same]
        exact recorded.linked
      · rw [same]
        exact recorded.sourced
    · refine ⟨?_, ?_, ?_, chain⟩
      · rw [more, executed_append_of_some busy, List.map_append, List.map_append, recorded.ops,
          List.map_singleton, Packet.op?_retirement front, List.map_singleton]
      · rw [more]
        exact chained.linked_retire packets before.machine
      · intro spares retirement member
        rw [more] at member
        rcases List.mem_append.mp member with member | member
        · exact recorded.sourced spares retirement member
        · rw [List.mem_singleton.mp member]
          exact ⟨packet.token, packet.speculative,
            (traced spares).packets packet (packets ▸ List.mem_cons_self),
            (stocked.genuine_head packets).expanded⟩
  | false =>
    rw [runCycle_of_stopped running] at ran
    cases ran
    refine ⟨?_, recorded.linked, recorded.sourced, ?_⟩
    · rw [executed_append_of_none rfl]
      exact recorded.ops
    · intro still
      rw [running] at still
      cases still

theorem Loaded.recorded_of_runCycles {count : Nat}
    (loaded : Loaded configuration kind executable output start)
    (ran : start.runCycles count = .ok (traces, after)) :
    after.Recorded start.machine.memory kind configuration.outstandingCapacity
      (start.ledger count) traces := by
  induction count generalizing traces after with
  | zero =>
    cases ran
    exact loaded.recorded
  | succ count inductionHypothesis =>
    rcases runCycles_succ.mp ran with ⟨earlier, before, trace, flow, shorter, once, rfl⟩
    rw [ledger_succ shorter once]
    exact (inductionHypothesis shorter).next once

/-- Where execution goes on.  In any run in which no cycle fails, with any
predictor, the ledger retires the micro-operations that were executed, in order.
Behind a part that does not end its group the following part of the group comes
next.  Behind the end of a group the first part of a group comes next: behind a
branch that of the instruction to which the branch was resolved to go, and
behind an instruction without a branch that of the instruction behind it,
provided that the program spares the bounds of its text section, or else that no
branch has been executed at that location before. -/
theorem executes_onward {count : Nat} {reached : Processor}
    (loads : load configuration kind executable output = .ok start)
    (ran : start.runCycles count = .ok (traces, reached)) :
    (start.ledger count).retired.map Retirement.op? = (executed traces).map some ∧
    ∀ place last next, (start.ledger count).retired[place]? = some last →
      (start.ledger count).retired[place + 1]? = some next →
      (¬ last.IsLast → next.toPart = last.following) ∧
      (last.IsLast →
        next.index = 0 ∧
        (last.branches = true → next.location = last.onward) ∧
        ((∀ op ∈ last.group, op.opcode ≠ .jump) →
          executable.SparesBounds ∨
            ¬ Taught kind ((start.ledger count).retired.take place) last.location →
          next.location = last.location + 1)) := by
  have loaded := loaded_of_load loads
  have recorded := loaded.recorded_of_runCycles ran
  refine ⟨recorded.ops, ?_⟩
  intro place last next found behind
  have leads := recorded.linked place last next found behind
  refine ⟨leads.within, fun ended => ⟨leads.first ended, leads.branch ended, ?_⟩⟩
  rintro plain (spares | untaught)
  · have sourced := recorded.sourced (loaded.sparesBounds spares)
    refine leads.plain ended plain ?_
    exact (sourced last (List.mem_of_getElem? found)).untaught
      (fun earlier member => sourced earlier (List.mem_of_mem_take member)) plain
  · exact leads.plain ended plain untaught

/-- Jumps over its exit, moves the start of the text section behind the jump and
goes back to where that was.  Nothing is to be done there any more, and behind it
comes the exit. -/
def detour : Executable :=
  .ofParts ["jmp 5", "mov rax 60", "syscall", "mov cs 3", "jmp 2"] []

/-- The parts that the detour executes, up to the first one behind the moved
bounds.  The last two should be one behind the other. -/
def detourParts : List Part :=
  Part.ofGroup 2 [⟨.load, some (.immediate 5), .quad, false⟩,
    ⟨.jump, some (.condition .always), .quad, false⟩] ++
  Part.ofGroup 5 [⟨.load, some (.immediate 3), .quad, false⟩,
    ⟨.store, some (.register ⟨.cs, .quad⟩), .quad, false⟩] ++
  Part.ofGroup 6 [⟨.load, some (.immediate 2), .quad, false⟩,
    ⟨.jump, some (.condition .always), .quad, false⟩] ++
  [⟨2, [⟨.idle, none, .quad, false⟩], 0⟩,
    ⟨5, [⟨.load, some (.immediate 3), .quad, true⟩,
      ⟨.store, some (.register ⟨.cs, .quad⟩), .quad, true⟩], 0⟩]

/-- With a predictor that has learned of the first jump. -/
theorem exists_detour :
    ∃ start traces reached, load { memorySize := 8 } .alwaysTaken detour .accepting = .ok start ∧
      start.runCycles 14 = .ok (traces, reached) ∧
      (start.ledger 14).retired.map Retirement.toPart = detourParts := by
  have computed : (runLoaded { memorySize := 8 } .alwaysTaken detour .accepting 14).toOption.any
      (fun _ => true) = true := by
    decide +kernel
  have checked : (load { memorySize := 8 } .alwaysTaken detour .accepting).toOption.any
      (fun start => decide ((start.ledger 14).retired.map Retirement.toPart = detourParts)) =
        true := by
    decide +kernel
  rcases exists_of_runLoaded computed with ⟨start, traces, reached, loads, ran, -⟩
  rw [loads] at checked
  exact ⟨start, traces, reached, loads, ran, of_decide_eq_true checked⟩

theorem exists_retirement {retired : List Retirement} {parts : List Part} {part : Part}
    (listed : retired.map Retirement.toPart = parts) (place : Nat)
    (found : parts[place]? = some part) :
    ∃ retirement, retired[place]? = some retirement ∧ retirement.toPart = part := by
  rw [← listed, List.getElem?_map, Option.map_eq_some_iff] at found
  exact found

/-- The first jump leads to its target, and the instruction there, which moves
the bounds, to the one behind it. -/
theorem executes_onward_detour :
    ∃ start traces reached, load { memorySize := 8 } .alwaysTaken detour .accepting = .ok start ∧
      start.runCycles 14 = .ok (traces, reached) ∧
      ∃ jump first last next, (start.ledger 14).retired[1]? = some jump ∧
        (start.ledger 14).retired[2]? = some first ∧ (start.ledger 14).retired[3]? = some last ∧
        (start.ledger 14).retired[4]? = some next ∧ jump.branches = true ∧
        first.location = jump.onward ∧ last.toPart = first.following ∧
        next.location = last.location + 1 := by
  rcases exists_detour with ⟨start, traces, reached, loads, ran, listed⟩
  have leads := (executes_onward loads ran).2
  rcases exists_retirement listed 1 rfl with ⟨jump, second, isJump⟩
  rcases exists_retirement listed 2 rfl with ⟨first, third, isFirst⟩
  rcases exists_retirement listed 3 rfl with ⟨last, fourth, isLast⟩
  rcases exists_retirement listed 4 rfl with ⟨next, fifth, -⟩
  have branches : jump.branches = true := by
    rw [Retirement.branches, Retirement.op?, isJump]
    rfl
  have untaught : ¬ Taught .alwaysTaken ((start.ledger 14).retired.take 3) last.location := by
    have elsewhere : ∀ part ∈ detourParts.take 3,
        part.op?.any (·.opcode == .jump) = true → part.location ≠ 5 := by
      decide
    rintro ⟨-, earlier, member, jumps, same⟩
    have listed : earlier.toPart ∈ detourParts.take 3 := by
      rw [← listed, ← List.map_take]
      exact List.mem_map_of_mem member
    apply elsewhere _ listed jumps
    rw [same, isLast]
  refine ⟨start, traces, reached, loads, ran, jump, first, last, next, second, third, fourth,
    fifth, branches, ?_, ?_, ?_⟩
  · exact ((leads 1 jump first second third).2 (by rw [isJump]; rfl)).2.1 branches
  · exact (leads 2 first last third fourth).1 (by rw [isFirst]; decide)
  · refine ((leads 3 last next fourth fifth).2 (by rw [isLast]; rfl)).2.2 ?_ (Or.inr untaught)
    rw [isLast]
    decide

/-- Execution does not always go on where it should.  Behind the location that
the bounds have passed, where a branch was executed before, the instruction that
comes next is the target of that branch and not the one behind. -/
theorem astray_behind_moved_bounds :
    ∃ start traces reached, load { memorySize := 8 } .alwaysTaken detour .accepting = .ok start ∧
      start.runCycles 14 = .ok (traces, reached) ∧
      ∃ last next, (start.ledger 14).retired[6]? = some last ∧
        (start.ledger 14).retired[7]? = some next ∧ last.IsLast ∧
        (∀ op ∈ last.group, op.opcode ≠ .jump) ∧ last.location = 2 ∧ next.location = 5 := by
  rcases exists_detour with ⟨start, traces, reached, loads, ran, listed⟩
  rcases exists_retirement listed 6 rfl with ⟨last, seventh, isLast⟩
  rcases exists_retirement listed 7 rfl with ⟨next, eighth, isNext⟩
  refine ⟨start, traces, reached, loads, ran, last, next, seventh, eighth, ?_, ?_, ?_, ?_⟩
  · rw [isLast]
    rfl
  · rw [isLast]
    decide
  · rw [isLast]
  · rw [isNext]

end Processor
end BranchPipeline
