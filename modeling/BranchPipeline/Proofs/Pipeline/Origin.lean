import BranchPipeline.Proofs.Pipeline.Run

namespace BranchPipeline

open Attempt

/-!
# Where instructions in flight come from

A program may overwrite its own text, but only with words, and a word cannot be
fetched as an instruction.  So as long as the bounds of the text section stand
in their registers, whatever is fetched at a location is what the executable
has there, and all packets from one location hold the same group.  Then a
predictor can only have been taught locations at which the executable has a
branch, and it can only leave the straight path there.
-/

/-- An address that is not negative as a word is the location's own number. -/
theorem Address.index_of_ofInt64 {location : UInt64} {address : Address}
    (positive : Address.ofInt64 location.toInt64 = .ok address) :
    address.index = location.toNat := by
  unfold Address.ofInt64 at positive
  split at positive
  · cases positive
  · rename_i nonnegative
    cases positive
    have value : location.toInt64.toInt = location.toBitVec.toInt := rfl
    have sign : 0 ≤ location.toInt64.toInt := by
      rw [Int64.lt_iff_toInt_lt] at nonnegative
      exact Int.not_lt.mp nonnegative
    rw [value] at sign ⊢
    rw [BitVec.toInt_eq_toNat_cond] at sign ⊢
    split at sign
    · rename_i small
      rw [if_pos small]
      rfl
    · have bound := location.toBitVec.isLt
      omega

namespace Memory

/-- Whether fetch takes a location for one in the text section.  The bounds are
compared as machine words. -/
def inText (memory : Memory) (location : UInt64) : Bool :=
  memory.textSection.start.toUInt64 ≤ location && location < memory.textSection.stop.toUInt64

/-- The text that is fetched from a location. -/
def tokenAt (memory : Memory) (location : UInt64) : Except Fault String :=
  if memory.inText location then do
    let address ← (Address.ofInt64 location.toInt64).mapError Fault.memory
    let cell ← (memory.get address).mapError Fault.memory
    (asToken address cell).mapError Fault.memory
  else .ok Processor.idleToken

/-- The instruction that a location stands for. -/
def instructionAt (memory : Memory) (location : UInt64) : Except Fault String :=
  (memory.tokenAt location).map Processor.instruction

/-- A group that some location stands for. -/
def Expands (memory : Memory) (group : List MicroOp) : Prop :=
  ∃ location token speculative, memory.instructionAt location = .ok token ∧
    Instruction.expand token speculative = .ok group

/-- The instruction at the location is a branch. -/
def Branching (memory : Memory) (location : UInt64) : Prop :=
  ∃ token group, memory.instructionAt location = .ok token ∧
    Instruction.expand token false = .ok group ∧ ∃ op ∈ group, op.opcode = .jump

/-- No instruction writes one of the registers that hold the bounds. -/
def SparesBounds (memory : Memory) : Prop :=
  ∀ group, memory.Expands group → ∀ op ∈ group, op.opcode = .store →
    ∀ ref, op.operand = some (.register ref) → ref.register ≠ .cs ∧ ref.register ≠ .ds

variable {memory source changed : Memory} {location : UInt64} {token : String}

theorem tokenAt_eq_ok_iff :
    memory.tokenAt location = .ok token ↔
      (memory.inText location = true ∧ ∃ address, Address.ofInt64 location.toInt64 = .ok address ∧
        memory.cells[address.index]? = some (.token token)) ∨
      (memory.inText location = false ∧ token = Processor.idleToken) := by
  unfold tokenAt
  cases memory.inText location with
  | false => simp [eq_comm]
  | true =>
    simp only [if_true, bind_eq_ok_iff, mapError_eq_ok, true_and, Bool.true_eq_false,
      false_and, or_false]
    constructor
    · rintro ⟨address, positive, cell, found, shown⟩
      refine ⟨address, positive, ?_⟩
      unfold get at found
      split at found
      · rename_i held present
        cases found
        cases cell with
        | word value => cases shown
        | token text =>
          cases shown
          exact present
      · cases found
    · rintro ⟨address, positive, present⟩
      exact ⟨address, positive, .token token, by simp only [get, present], rfl⟩

/-! ## Memory that only words are stored to -/

/-- What can be fetched from `memory` is what the memory `source` has there. -/
structure StemsFrom (memory source : Memory) : Prop where
  textSection : memory.textSection = source.textSection
  tokens : ∀ location token, memory.tokenAt location = .ok token →
    source.tokenAt location = .ok token

theorem StemsFrom.refl (memory : Memory) : memory.StemsFrom memory := ⟨rfl, fun _ _ => id⟩

/-- Storing a word creates no instruction. -/
theorem tokenAt_of_set {address : Address} {value : Int64}
    (stored : memory.set address (.word value) = .ok changed)
    (fetched : changed.tokenAt location = .ok token) : memory.tokenAt location = .ok token := by
  rcases set_eq_ok_iff.mp stored with ⟨bound, rfl⟩
  rw [tokenAt_eq_ok_iff] at fetched ⊢
  rcases fetched with ⟨inside, place, positive, present⟩ | outside
  · refine Or.inl ⟨inside, place, positive, ?_⟩
    rw [Array.getElem?_set] at present
    split at present
    · cases present
    · exact present
  · exact Or.inr outside

theorem StemsFrom.set (stems : memory.StemsFrom source) {address : Address} {value : Int64}
    (stored : memory.set address (.word value) = .ok changed) : changed.StemsFrom source where
  textSection := (textSection_of_set stored).trans stems.textSection
  tokens location token fetched := stems.tokens location token (tokenAt_of_set stored fetched)

/-- Storing outside the text section changes no instruction. -/
theorem tokenAt_of_set_outside {address : Address} {cell : Cell}
    (stored : memory.set address cell = .ok changed)
    (outside : memory.inText address.index.toUInt64 = false) (location : UInt64) :
    changed.tokenAt location = memory.tokenAt location := by
  have bounds : changed.inText location = memory.inText location := by
    rw [inText, textSection_of_set stored, inText]
  unfold tokenAt
  rw [bounds]
  cases inside : memory.inText location with
  | false => rfl
  | true =>
    cases positive : Address.ofInt64 location.toInt64 with
    | error fault => rfl
    | ok place =>
      have different : place.index ≠ address.index := by
        intro same
        rw [← same, Address.index_of_ofInt64 positive] at outside
        simp [inside] at outside
      show (do
        let cell ← (changed.get place).mapError Fault.memory
        (asToken place cell).mapError Fault.memory) = _
      rw [get_of_set_of_ne stored different]
      rfl

/-! ## The instructions at one location -/

/-- Locations with the same instruction hold the same group. -/
theorem branching_iff {speculative : Bool} {group : List MicroOp}
    (origin : memory.instructionAt location = .ok token)
    (expanded : Instruction.expand token speculative = .ok group) :
    memory.Branching location ↔ ∃ op ∈ group, op.opcode = .jump := by
  have unmarked := Instruction.expand_marked expanded false
  constructor
  · rintro ⟨other, members, found, expands, op, member, branches⟩
    rw [origin] at found
    cases found
    rw [unmarked] at expands
    cases expands
    rcases List.mem_map.mp member with ⟨marked, present, rfl⟩
    exact ⟨marked, present, branches⟩
  · rintro ⟨op, member, branches⟩
    exact ⟨token, _, origin, unmarked, op.marked false, List.mem_map_of_mem member, branches⟩

end Memory

/-- The packet has its branch still to come. -/
def Packet.isBranch (packet : Packet) : Bool := packet.waiting.any (·.opcode == .jump)

theorem Packet.isBranch_iff {packet : Packet} :
    packet.isBranch = true ↔ ∃ op ∈ packet.waiting, op.opcode = .jump := by
  simp [isBranch]

/-- A micro-operation that is not a branch does not count. -/
theorem Packet.isBranch_eq_any {packet : Packet} {op : MicroOp} {rest : List MicroOp}
    (front : packet.waiting = op :: rest) (plain : op.opcode ≠ .jump) :
    packet.isBranch = rest.any (·.opcode == .jump) := by
  have other : (op.opcode == MicroOpcode.jump) = false := beq_eq_false_iff_ne.mpr plain
  rw [isBranch, front, List.any_cons, other, Bool.false_or]

/-- A branch is executed last, so a packet has it to come exactly if there is a
branch at its location. -/
theorem Packet.Genuine.isBranch_iff_branching {packet : Packet} {source : Memory}
    (genuine : packet.Genuine)
    (origin : source.instructionAt packet.location = .ok packet.token) :
    packet.isBranch = true ↔ source.Branching packet.location := by
  rw [Packet.isBranch_iff, Memory.branching_iff origin genuine.expanded]
  constructor
  · rintro ⟨op, member, branches⟩
    exact ⟨op, List.mem_append_right _ member, branches⟩
  · rintro ⟨op, member, branches⟩
    rcases List.mem_append.mp member with member | member
    · rcases List.append_of_mem member with ⟨front, later, split⟩
      have expanded := genuine.expanded
      rw [split, List.append_assoc, List.cons_append] at expanded
      have ended := (Instruction.last_of_jump expanded branches).1
      exact absurd (List.append_eq_nil_iff.mp ended).2 genuine.pending
    · exact ⟨op, member, branches⟩

namespace Machine

/-- The machine fetches from `source`: the bounds of the text section stand in
their registers, and no other instructions are in memory. -/
structure Hosts (machine : Machine) (source : Memory) : Prop where
  cs : machine.registers.content .cs = .number source.textSection.start.toUInt64
  ds : machine.registers.content .ds = .number source.textSection.stop.toUInt64
  memory : machine.memory.StemsFrom source

variable {machine after : Machine} {source : Memory} {location : UInt64} {token : String}

theorem Hosts.of_agrees (hosts : machine.Hosts source) (agrees : machine.Agrees after) :
    after.Hosts source where
  cs := (agrees.registers .cs rfl).trans hosts.cs
  ds := (agrees.registers .ds rfl).trans hosts.ds
  memory := agrees.memory ▸ hosts.memory

/-- What is fetched is what the memory has there. -/
theorem Hosts.tokenAt_of_reads (hosts : machine.Hosts source)
    (reads : (Processor.instructionAt location).Yields machine token after) :
    machine.memory.tokenAt location = .ok token := by
  simp only [Processor.instructionAt, yields_bind, yields_readRegister] at reads
  rcases reads with ⟨textStart, _, ⟨start, rfl⟩, dataStart, _, ⟨stop, rfl⟩, reads⟩
  rw [RegisterFile.read_full hosts.cs] at start
  injection start with start
  replace stop := (RegisterFile.read_full hosts.ds).symm.trans stop
  injection stop with stop
  subst start stop
  rw [Memory.tokenAt_eq_ok_iff, Memory.inText, hosts.memory.textSection]
  split at reads
  · rename_i inside
    simp only [yields_bind, yields_ofExcept, and_assoc, exists_and_left, exists_eq_left,
      yields_readToken, yields_readCell] at reads
    rcases reads with ⟨address, positive, cell, found, -, shown⟩
    refine Or.inl ⟨inside, address, positive, ?_⟩
    replace found : machine.memory.get address = .ok cell := found
    unfold Memory.get at found
    split at found
    · rename_i held present
      cases found
      cases cell with
      | word value => cases shown
      | token text =>
        cases shown
        exact present
    · cases found
  · rename_i outside
    rcases yields_pure.mp reads with ⟨rfl, -⟩
    exact Or.inr ⟨Bool.eq_false_iff.mpr outside, rfl⟩

/-- An instruction that spares the bounds keeps the machine fetching from the
same source. -/
theorem Hosts.act {op : MicroOp} {group : List MicroOp} {exits : Bool}
    (hosts : machine.Hosts source) (spares : source.SparesBounds) (expands : source.Expands group)
    (member : op ∈ group) (acts : (act op).Yields machine exits after) : after.Hosts source := by
  have confined := confined_of_act acts
  have spared := spares group expands op member
  refine ⟨?_, ?_, ?_⟩
  · rcases confined.registers .cs with same | impossible | ⟨stores, ref, named, register⟩
    · exact same.trans hosts.cs
    · cases impossible
    · exact absurd register (spared stores ref named).1
  · rcases confined.registers .ds with same | impossible | ⟨stores, ref, named, register⟩
    · exact same.trans hosts.ds
    · cases impossible
    · exact absurd register (spared stores ref named).2
  · rcases confined.memory with same | ⟨address, value, -, stored⟩
    · rw [same]
      exact hosts.memory
    · exact hosts.memory.set stored

end Machine

namespace Processor

/-- All that is in flight comes from `source`, and the predictor has been
taught branches of `source` only. -/
structure Traced (source : Memory) (kind : PredictorKind) (room : Nat) (processor : Processor)
    (stock : Stock) : Prop where
  hosts : processor.machine.Hosts source
  packets : ∀ packet ∈ stock.packets, source.instructionAt packet.location = .ok packet.token
  latch : ∀ fetched, stock.latch = some fetched →
    source.tokenAt fetched.location = .ok fetched.token
  trained : processor.predictor.Trained kind source.Branching room

variable {before after : Processor} {stock reached : Stock} {fetched : Fetched} {source : Memory}
  {kind : PredictorKind} {room : Nat}

/-- The group of a packet is one that the source expands. -/
theorem Traced.expands (traced : Traced source kind room before stock) {packet : Packet}
    (member : packet ∈ stock.packets) (genuine : packet.Genuine) :
    source.Expands (packet.executed ++ packet.waiting) :=
  ⟨_, _, _, traced.packets packet member, genuine.expanded⟩

/-! ## The predictor from stage to stage -/

/-- A fetch that is not passed through leaves the straight path, or adds to the
queue of predictions, only behind a branch. -/
theorem Fetches.predictor {position : UInt64} (fetches : Fetches before position fetched after)
    (trained : before.predictor.Trained kind source.Branching room)
    (awake : before.predictor.stalled = false) :
    after.predictor.Trained kind source.Branching room ∧
      (¬ source.Branching position → fetched.location = position + 1) ∧
      (after.predictor.outstanding = before.predictor.outstanding ∨
        source.Branching position ∧
          after.predictor.outstanding = before.predictor.outstanding ++ [position]) :=
  trained.predict awake fetches.predicts

/-- The first fetch after a stall goes to the given address and predicts
nothing. -/
theorem Fetches.predictor_of_stalled {position : UInt64}
    (fetches : Fetches before position fetched after)
    (asleep : before.predictor.stalled = true) :
    fetched.location = position ∧ after.predictor.strategy = before.predictor.strategy := by
  rcases Predictor.yields_predict.mp fetches.predicts with ⟨-, same, woken⟩ | ⟨awake, -⟩
  · exact ⟨same, (congrArg Predictor.strategy woken :)⟩
  · rw [asleep] at awake
    cases awake

/-- A confirmed branch leaves the queue, if it stood at its front. -/
theorem Confirms.predictor {location : UInt64} {op : MicroOp} {resolution : Machine.Resolution}
    (confirms : Confirms before location op resolution after)
    (trained : before.predictor.Trained kind source.Branching room)
    (branch : source.Branching location) :
    after.predictor.Trained kind source.Branching room ∧
      (after.predictor.outstanding = [] ∨
        (before.predictor.outstanding.head? ≠ some location ∧
          after.predictor.outstanding = before.predictor.outstanding) ∨
        (before.predictor.outstanding.head? = some location ∧
          after.predictor.outstanding = before.predictor.outstanding.tail)) := by
  rcases trained.exists_update branch resolution.target resolution.taken with
      ⟨predictor, updates, kept, queue⟩
  rcases updates.unique confirms.updates with ⟨-, rfl⟩
  exact ⟨kept, queue⟩

/-- A redirect leaves no prediction outstanding. -/
theorem Redirects.predictor {location : UInt64} {op : MicroOp} {resolution : Machine.Resolution}
    (redirects : Redirects before location op resolution after)
    (trained : before.predictor.Trained kind source.Branching room)
    (branch : source.Branching location) :
    after.predictor.Trained kind source.Branching room ∧ after.predictor.outstanding = [] := by
  rcases redirects.updates with ⟨taught, updates, stalls⟩
  rcases trained.exists_update branch resolution.target resolution.taken with
      ⟨predictor, updated, kept, -⟩
  rcases updated.unique updates with ⟨-, rfl⟩
  rcases kept.exists_stall with ⟨settled, stalled, kept, empty⟩
  rcases stalled.unique stalls with ⟨-, rfl⟩
  exact ⟨kept, empty⟩

/-! ## From cycle to cycle -/

/-- What is fetched is what the memory has at the location. -/
theorem Fetches.token {position : UInt64} (fetches : Fetches before position fetched after)
    (hosts : before.machine.Hosts source) :
    before.machine.memory.tokenAt fetched.location = .ok fetched.token := by
  rcases fetches.reads with ⟨asked, answered, agrees, reads⟩
  rw [← agrees.memory]
  exact (hosts.of_agrees agrees).tokenAt_of_reads reads

theorem Supplies.traced {decoded : Option Decoded} {result : Option Fetched}
    (supplies : Supplies before stock fetched decoded result after reached)
    (carries : before.Carries stock) (latch : stock.latch = some fetched)
    (traced : Traced source kind room before stock) : Traced source kind room after reached := by
  cases supplies with
  | issued issues fetches =>
    have hosts := traced.hosts.of_agrees issues.untouched.agrees
    have awake := carries.asleep
    have trained := traced.trained
    rw [← issues.predictor] at awake trained
    rw [latch] at awake
    refine ⟨hosts.of_agrees fetches.agrees, ?_, ?_, (fetches.predictor trained awake).1⟩
    · intro packet member
      rcases List.mem_append.mp member with member | member
      · exact traced.packets packet member
      · rw [List.mem_singleton.mp member, issues.location, issues.token, Memory.instructionAt,
          traced.latch fetched latch]
        rfl
    · intro other same
      cases same
      exact hosts.memory.tokens _ _ (fetches.token hosts)
  | deferred defers =>
    rw [defers.after_eq]
    exact ⟨traced.hosts, traced.packets, traced.latch, traced.trained⟩

/-- Executing a micro-operation leaves the locations and texts of the packets
alone. -/
theorem mem_advance {packet other : Packet} {op : MicroOp} {rest : List MicroOp}
    {later : List Packet} (member : other ∈ advance packet op rest later) :
    other ∈ later ∨ other = packet.stepped op rest := by
  rw [advance] at member
  split at member
  · exact Or.inl member
  · rcases List.mem_cons.mp member with same | member
    · exact Or.inr same
    · exact Or.inl member

theorem Traced.acted {packet : Packet} {op : MicroOp} {rest : List MicroOp} {later : List Packet}
    (traced : Traced source kind room before stock) (spares : source.SparesBounds)
    (packets : stock.packets = packet :: later) (front : packet.waiting = op :: rest)
    (genuine : packet.Genuine) (acts : Acts before op after) :
    Traced source kind room after { stock with packets := advance packet op rest later } := by
  have head : packet ∈ stock.packets := by
    rw [packets]
    exact List.mem_cons_self
  have member : op ∈ packet.executed ++ packet.waiting := by simp [front]
  refine ⟨?_, ?_, traced.latch, ?_⟩
  · exact traced.hosts.act spares (traced.expands head genuine) member acts.acts
  · intro other waiting
    rcases mem_advance waiting with waiting | rfl
    · exact traced.packets other (by rw [packets]; exact List.mem_cons_of_mem _ waiting)
    · exact traced.packets packet head
  · rw [acts.predictor]
    exact traced.trained

/-- The packet at the front stands at a branch if a branch is executed. -/
theorem Traced.branching {packet : Packet} {op : MicroOp} {rest : List MicroOp}
    {later : List Packet} (traced : Traced source kind room before stock)
    (packets : stock.packets = packet :: later) (genuine : packet.Genuine)
    (front : packet.waiting = op :: rest) (branches : op.opcode = .jump) :
    source.Branching packet.location := by
  have origin := traced.packets packet (packets ▸ List.mem_cons_self)
  rw [← genuine.isBranch_iff_branching origin, Packet.isBranch_iff]
  exact ⟨op, by simp [front], branches⟩

theorem Traced.confirmed {packet : Packet} {op : MicroOp} {later : List Packet}
    {resolution : Machine.Resolution} (traced : Traced source kind room before stock)
    (packets : stock.packets = packet :: later) (branch : source.Branching packet.location)
    (confirms : Confirms before packet.location op resolution after) :
    Traced source kind room after { stock with packets := later } where
  hosts := traced.hosts.of_agrees (Machine.untouched_of_resolve confirms.resolves).agrees
  packets other waiting := traced.packets other (packets ▸ List.mem_cons_of_mem _ waiting)
  latch := traced.latch
  trained := (confirms.predictor traced.trained branch).1

/-- Where nothing is in flight, only the machine and the predictor matter. -/
theorem traced_of_empty {position : UInt64} (hosts : before.machine.Hosts source)
    (trained : before.predictor.Trained kind source.Branching room) :
    Traced source kind room before ⟨[], none, position⟩ := by
  refine ⟨hosts, ?_, ?_, trained⟩
  · intro packet member
    cases member
  · intro fetched lost
    cases lost

theorem Traced.finish (traced : Traced source kind room before stock) :
    Traced source kind room before.finish stock :=
  ⟨traced.hosts, traced.packets, traced.latch, traced.trained⟩

/-- All that a cycle does keeps the stock traced. -/
theorem Turns.traced {trace : CycleTrace} (turns : Turns before stock trace after reached)
    (stocked : before.Stocked stock) (traced : Traced source kind room before stock)
    (spares : source.SparesBounds) : Traced source kind room after reached := by
  cases turns with
  | refetched idle lost fetches =>
    have asleep := stocked.asleep
    rw [lost] at asleep
    refine ⟨traced.hosts.of_agrees fetches.agrees, ?_, ?_, ?_⟩
    · intro packet member
      cases member
    · intro other same
      cases same
      exact traced.hosts.memory.tokens _ _ (fetches.token traced.hosts)
    · show Strategy.Trained _ _ _ _
      rw [finish, (fetches.predictor_of_stalled asleep).2]
      exact traced.trained
  | refilled idle latch supplies =>
    exact (supplies.traced stocked.toCarries latch traced).finish
  | acted packets front latch plain acts supplies =>
    have genuine := stocked.genuine_head packets
    exact (supplies.traced (acts.carries stocked.toCarries packets front) latch
      (traced.acted spares packets front genuine acts)).finish
  | confirmed packets front latch branches right confirms supplies =>
    have branch := traced.branching packets (stocked.genuine_head packets) front branches
    exact (supplies.traced (confirms.carries stocked.toCarries packets front) latch
      (traced.confirmed packets branch confirms)).finish
  | redirected packets front branches wrong redirects =>
    have branch := traced.branching packets (stocked.genuine_head packets) front branches
    rcases redirects.resolves with ⟨machine, resolves, agrees⟩
    refine traced_of_empty ?_ (redirects.predictor traced.trained branch).1
    exact traced.hosts.of_agrees ((Machine.untouched_of_resolve resolves).agrees.trans agrees)
  | exited packets front calls exits =>
    have genuine := stocked.genuine_head packets
    have expands := traced.expands (packets ▸ List.mem_cons_self) genuine
    rcases exits.acts with ⟨machine, acts, agrees⟩
    refine traced_of_empty ?_ ?_
    · exact (traced.hosts.act spares expands (by simp [front]) acts).of_agrees agrees
    · show Strategy.Trained _ _ _ _
      rw [finish, exits.predictor]
      exact traced.trained

end Processor
end BranchPipeline
