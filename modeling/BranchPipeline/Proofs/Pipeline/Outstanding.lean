import BranchPipeline.Proofs.Pipeline.Origin

namespace BranchPipeline

/-!
# Outstanding predictions

A prediction is queued when the instruction behind a branch is fetched, and
leaves the queue when the branch is executed.  In between the branch is in
flight, so the queue is part of the branches in flight, in their order.  Some
branches in flight have no prediction: those that were unknown when they were
fetched, and those whose prediction was dropped because an older branch came
out differently.

A branch is never the only micro-operation of its instruction, which bounds
the branches that fit into the buffers.
-/

/-- The locations of the packets that have their branch still to come. -/
def pendingBranches (packets : List Packet) : List UInt64 :=
  (packets.filter Packet.isBranch).map Packet.location

/-- The locations of the branches in the reorder buffer, the oldest first. -/
def InFlight.branchLocations (inFlight : InFlight) : List UInt64 :=
  (inFlight.reorder.toList.filter (·.opcode == .jump)).map (·.location)

theorem pendingBranches_append (front later : List Packet) :
    pendingBranches (front ++ later) = pendingBranches front ++ pendingBranches later := by
  rw [pendingBranches, List.filter_append, List.map_append]
  rfl

theorem pendingBranches_cons (packet : Packet) (later : List Packet) :
    pendingBranches (packet :: later) = pendingBranches [packet] ++ pendingBranches later :=
  pendingBranches_append [packet] later

theorem pendingBranches_singleton (packet : Packet) :
    pendingBranches [packet] = if packet.isBranch then [packet.location] else [] := by
  cases branch : packet.isBranch <;> simp [pendingBranches, branch]

namespace Packet

/-- A packet has no branch to come but at its end. -/
theorem Genuine.exists_front {packet : Packet} (genuine : packet.Genuine)
    (branch : packet.isBranch = true) :
    ∃ front op, packet.waiting = front ++ [op] ∧ op.opcode = .jump ∧
      ∀ other ∈ front, other.opcode ≠ .jump := by
  rcases Packet.isBranch_iff.mp branch with ⟨op, member, branches⟩
  rcases List.append_of_mem member with ⟨front, later, split⟩
  have ended := (genuine.last_of_jump split branches).1
  rw [ended] at split
  refine ⟨front, op, split, branches, ?_⟩
  intro other member branches
  exact genuine.plain_of_mem split member branches

/-- The branches among the entries of a packet. -/
theorem Genuine.branchEntries {packet : Packet} (genuine : packet.Genuine)
    (next : Option Successor) :
    ((packet.waiting.map (packet.entry next)).filter (·.opcode == .jump)).map (·.location) =
      pendingBranches [packet] := by
  cases branch : packet.isBranch with
  | false =>
    have none : (packet.waiting.map (packet.entry next)).filter (·.opcode == .jump) = [] := by
      rw [List.filter_eq_nil_iff]
      intro entry member
      rcases List.mem_map.mp member with ⟨op, waits, rfl⟩
      intro branches
      have found := Packet.isBranch_iff.mpr ⟨op, waits, beq_iff_eq.mp branches⟩
      rw [branch] at found
      cases found
    rw [none, pendingBranches_singleton, branch]
    rfl
  | true =>
    rcases genuine.exists_front branch with ⟨front, op, split, branches, plain⟩
    have none : (front.map (packet.entry next)).filter (·.opcode == .jump) = [] := by
      rw [List.filter_eq_nil_iff]
      intro entry member
      rcases List.mem_map.mp member with ⟨other, waits, rfl⟩
      exact fun same => plain other waits (beq_iff_eq.mp same)
    rw [split, List.map_append, List.filter_append, none, pendingBranches_singleton, branch]
    simp [entry, branches]

/-- A fresh packet with a branch waits for two micro-operations at least. -/
theorem Genuine.two_le_waiting {packet : Packet} (genuine : packet.Genuine)
    (branch : packet.isBranch = true) (fresh : packet.executed = []) :
    2 ≤ packet.waiting.length := by
  rcases genuine.exists_front branch with ⟨front, op, split, branches, -⟩
  have more := (genuine.last_of_jump split branches).2
  rw [fresh, List.nil_append] at more
  have positive := List.length_pos_iff.mpr more
  rw [split, List.length_append, List.length_singleton]
  omega

end Packet

/-- The branches in the reorder buffer are those of the packets. -/
theorem InFlight.Holds.branchLocations_eq {inFlight : InFlight} {packets : List Packet}
    (holds : inFlight.Holds packets) : inFlight.branchLocations = pendingBranches packets := by
  rw [InFlight.branchLocations, holds.reorder]
  have genuine := holds.genuine
  -- The tail of the packets is not what the buffers hold, but it is genuine.
  clear holds
  induction packets with
  | nil => rfl
  | cons packet later inductionHypothesis =>
    have first := (genuine packet List.mem_cons_self).branchEntries (successorOf none later)
    have others := inductionHypothesis fun other member =>
      genuine other (List.mem_cons_of_mem _ member)
    rw [entriesBefore, List.filter_append, List.map_append, first, others, ← pendingBranches_cons]

/-- Each branch that is in flight whole takes two places. -/
theorem two_mul_length_pendingBranches {packets : List Packet}
    (genuine : ∀ packet ∈ packets, packet.Genuine)
    (fresh : ∀ packet ∈ packets, packet.executed = []) :
    2 * (pendingBranches packets).length ≤ (packets.flatMap Packet.waiting).length := by
  induction packets with
  | nil => exact Nat.le_refl 0
  | cons packet later inductionHypothesis =>
    have others := inductionHypothesis
      (fun other member => genuine other (List.mem_cons_of_mem _ member))
      (fun other member => fresh other (List.mem_cons_of_mem _ member))
    have first := (genuine packet List.mem_cons_self).two_le_waiting
    rw [pendingBranches_cons, List.length_append, pendingBranches_singleton,
      List.flatMap_cons, List.length_append]
    split
    · rename_i branch
      have two := first branch (fresh packet List.mem_cons_self)
      rw [List.length_singleton]
      omega
    · rw [List.length_nil]
      omega

/-- The oldest one may have been executed in part. -/
theorem two_mul_length_pendingBranches_le {packets : List Packet}
    (genuine : ∀ packet ∈ packets, packet.Genuine)
    (fresh : ∀ packet ∈ packets.tail, packet.executed = []) :
    2 * (pendingBranches packets).length ≤ (packets.flatMap Packet.waiting).length + 1 := by
  cases packets with
  | nil => exact Nat.zero_le _
  | cons packet later =>
    have others := two_mul_length_pendingBranches
      (fun other member => genuine other (List.mem_cons_of_mem _ member)) fresh
    have positive := List.length_pos_iff.mpr (genuine packet List.mem_cons_self).pending
    rw [pendingBranches_cons, List.length_append, pendingBranches_singleton,
      List.flatMap_cons, List.length_append]
    split
    · rw [List.length_singleton]
      omega
    · rw [List.length_nil]
      omega

/-- A micro-operation that is not a branch leaves the branches in flight. -/
theorem pendingBranches_advance {packet : Packet} {op : MicroOp} {rest : List MicroOp}
    {later : List Packet} (front : packet.waiting = op :: rest) (plain : op.opcode ≠ .jump) :
    pendingBranches (advance packet op rest later) = pendingBranches (packet :: later) := by
  have branch := Packet.isBranch_eq_any front plain
  rw [advance]
  split
  · rename_i done
    rw [done] at branch
    rw [pendingBranches_cons packet, pendingBranches_singleton, branch]
    rfl
  · rw [pendingBranches_cons, pendingBranches_cons packet, pendingBranches_singleton,
      pendingBranches_singleton, branch]
    rfl

namespace Processor

variable {before after : Processor} {stock reached : Stock} {fetched : Fetched} {source : Memory}
  {kind : PredictorKind} {room : Nat}

/-- The outstanding predictions are for branches in flight, in their order. -/
structure Tracked (source : Memory) (kind : PredictorKind) (room : Nat) (processor : Processor)
    (stock : Stock) : Prop
    extends Carries processor stock, Traced source kind room processor stock where
  queued : processor.predictor.outstanding.Sublist (pendingBranches stock.packets)

/-- The bound follows from the room in the buffers. -/
theorem Tracked.few (tracked : Tracked source kind room before stock) :
    before.predictor.outstanding.length ≤ (before.inFlight.capacity + 1) / 2 := by
  have branches := two_mul_length_pendingBranches_le tracked.holds.genuine tracked.fresh
  have filled := tracked.holds.length_le
  have queued := tracked.queued.length_le
  omega

theorem Tracked.finish (tracked : Tracked source kind room before stock) :
    Tracked source kind room before.finish stock :=
  ⟨tracked.toCarries.finish, tracked.toTraced.finish, tracked.queued⟩

/-! ## The queue from stage to stage -/

/-- Decode issues the fetched instruction before the next one is predicted, so
a new prediction is for the youngest branch in flight. -/
theorem Supplies.tracked {decoded : Option Decoded} {result : Option Fetched}
    (supplies : Supplies before stock fetched decoded result after reached)
    (tracked : Tracked source kind room before stock) (latch : stock.latch = some fetched) :
    Tracked source kind room after reached := by
  have carries := supplies.carries tracked.toCarries
  have traced := supplies.traced tracked.toCarries latch tracked.toTraced
  refine ⟨carries, traced, ?_⟩
  have queued := tracked.queued
  cases supplies with
  | issued issues fetches =>
    rename_i packet next middle
    have member : packet ∈ stock.packets ++ [packet] := by simp
    have place : packet.location = stock.position :=
      issues.location.trans (tracked.latched fetched latch).1
    have awake := tracked.asleep
    have trained := tracked.trained
    rw [← issues.predictor] at awake trained queued
    rw [latch] at awake
    rw [pendingBranches_append]
    rcases (fetches.predictor trained awake).2.2 with same | ⟨branching, more⟩
    · rw [same]
      exact queued.trans (List.sublist_append_left _ _)
    · have origin := traced.packets packet member
      rw [← place, ← issues.genuine.isBranch_iff_branching origin] at branching
      rw [more, pendingBranches_singleton, branching, if_pos rfl, place]
      exact queued.append_right _
  | deferred defers =>
    rw [defers.after_eq]
    exact queued

theorem Acts.tracked {packet : Packet} {op : MicroOp} {rest : List MicroOp} {later : List Packet}
    (acts : Acts before op after) (tracked : Tracked source kind room before stock)
    (spares : source.SparesBounds) (packets : stock.packets = packet :: later)
    (front : packet.waiting = op :: rest) (plain : op.opcode ≠ .jump) :
    Tracked source kind room after { stock with packets := advance packet op rest later } where
  toCarries := acts.carries tracked.toCarries packets front
  toTraced := tracked.toTraced.acted spares packets front (tracked.genuine_head packets) acts
  queued := by
    rw [acts.predictor, pendingBranches_advance front plain, ← packets]
    exact tracked.queued

/-- A queue that lies within a list, and does not begin with its head, lies
within its tail. -/
theorem sublist_of_head?_ne {queue later : List UInt64} {first : UInt64}
    (within : queue.Sublist (first :: later)) (other : queue.head? ≠ some first) :
    queue.Sublist later := by
  cases within with
  | cons _ within => exact within
  | cons_cons _ within => exact absurd rfl other

/-- The oldest branch leaves the packets, and the queue if it stands there. -/
theorem Confirms.tracked {packet : Packet} {op : MicroOp} {later : List Packet}
    {resolution : Machine.Resolution}
    (confirms : Confirms before packet.location op resolution after)
    (tracked : Tracked source kind room before stock) (packets : stock.packets = packet :: later)
    (front : packet.waiting = [op]) (branches : op.opcode = .jump) :
    Tracked source kind room after { stock with packets := later } := by
  have genuine := tracked.genuine_head packets
  have branching := tracked.branching packets genuine front branches
  refine ⟨confirms.carries tracked.toCarries packets front,
    tracked.toTraced.confirmed packets branching confirms, ?_⟩
  have branch : packet.isBranch = true := Packet.isBranch_iff.mpr ⟨op, by simp [front], branches⟩
  have queued := tracked.queued
  rw [packets, pendingBranches_cons, pendingBranches_singleton, branch, if_pos rfl,
    List.singleton_append] at queued
  rcases (confirms.predictor tracked.trained branching).2 with none | ⟨other, same⟩ | ⟨-, fewer⟩
  · rw [none]
    exact List.nil_sublist _
  · rw [same]
    exact sublist_of_head?_ne queued other
  · rw [fewer]
    exact queued.tail

/-! ## The queue from cycle to cycle -/

/-- As long as the program has not exited, a cycle keeps the queue within the
branches in flight. -/
theorem Turns.tracked {trace : CycleTrace} (turns : Turns before stock trace after reached)
    (stocked : before.Stocked stock) (tracked : Tracked source kind room before stock)
    (spares : source.SparesBounds) (running : after.running = true) :
    Tracked source kind room after reached := by
  have carries := (turns.stocked stocked running).toCarries
  have traced := turns.traced stocked tracked.toTraced spares
  cases turns with
  | refetched idle lost fetches =>
    have asleep := tracked.asleep
    rw [lost] at asleep
    have queued := tracked.queued
    rw [idle] at queued
    refine ⟨carries, traced, ?_⟩
    show (Strategy.outstanding _).Sublist _
    rw [finish, (fetches.predictor_of_stalled asleep).2]
    exact queued
  | refilled idle latch supplies => exact (supplies.tracked tracked latch).finish
  | acted packets front latch plain acts supplies =>
    exact (supplies.tracked (acts.tracked tracked spares packets front plain) latch).finish
  | confirmed packets front latch branches right confirms supplies =>
    exact (supplies.tracked (confirms.tracked tracked packets front branches) latch).finish
  | redirected packets front branches wrong redirects =>
    have branching := tracked.branching packets (tracked.genuine_head packets) front branches
    refine ⟨carries, traced, ?_⟩
    show (Predictor.outstanding _).Sublist _
    rw [finish, (redirects.predictor tracked.trained branching).2]
    exact List.nil_sublist _
  | exited packets front calls exits =>
    replace running := exits.running.symm.trans running
    cases running

theorem Supplies.capacity {decoded : Option Decoded} {result : Option Fetched}
    (supplies : Supplies before stock fetched decoded result after reached) :
    after.inFlight.capacity = before.inFlight.capacity := by
  cases supplies with
  | issued issues fetches => rw [fetches.inFlight, issues.capacity]
  | deferred defers => rw [defers.after_eq]

theorem Retires.capacity (retires : Retires before after) :
    after.inFlight.capacity = before.inFlight.capacity := by
  rw [retires.inFlight, InFlight.capacity_retire]

theorem Empties.capacity (empties : Empties before after) :
    after.inFlight.capacity = before.inFlight.capacity := by
  rw [empties.inFlight, InFlight.capacity_retire, InFlight.capacity_flush]

theorem Turns.capacity {trace : CycleTrace} (turns : Turns before stock trace after reached) :
    after.inFlight.capacity = before.inFlight.capacity := by
  cases turns with
  | refetched idle lost fetches => exact congrArg _ fetches.inFlight
  | refilled idle latch supplies => exact supplies.capacity
  | acted packets front latch plain acts supplies =>
    exact supplies.capacity.trans acts.toRetires.capacity
  | confirmed packets front latch branches right confirms supplies =>
    exact supplies.capacity.trans confirms.toRetires.capacity
  | redirected packets front branches wrong redirects => exact redirects.toEmpties.capacity
  | exited packets front calls exits => exact exits.toEmpties.capacity

/-- Only the exit ends a run, and it leaves the predictor as it is. -/
theorem Turns.running_or_predictor {trace : CycleTrace}
    (turns : Turns before stock trace after reached) :
    after.running = before.running ∨ after.predictor = before.predictor := by
  cases turns with
  | refetched idle lost fetches => exact Or.inl fetches.course.running
  | refilled idle latch supplies => exact Or.inl supplies.course.running
  | acted packets front latch plain acts supplies =>
    exact Or.inl (supplies.course.running.trans acts.running)
  | confirmed packets front latch branches right confirms supplies =>
    exact Or.inl (supplies.course.running.trans confirms.running)
  | redirected packets front branches wrong redirects => exact Or.inl redirects.running
  | exited packets front calls exits => exact Or.inr exits.predictor

end Processor
end BranchPipeline
