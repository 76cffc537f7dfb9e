import BranchPipeline.Proofs.Pipeline.Run

namespace BranchPipeline

open Attempt

/-!
# What a branch knows of its successor

A branch is told its successor when the next group is issued.  So as long as
nothing has failed, the successor that stands with a branch in the reorder
buffer is the very next entry there, and a branch that has not been told is the
youngest entry.  Since a branch is never alone in the buffers when a cycle
begins, it has been told by the time it is executed, and the execute stage
never has to wait for it.
-/

/-- The entry as the branch in front of it knows it. -/
def ReorderEntry.asSuccessor (entry : ReorderEntry) : Successor :=
  ⟨entry.location, entry.speculative⟩

namespace Packet

/-- Every entry of a packet stands for its packet. -/
theorem Genuine.asSuccessor_entry {packet : Packet} {op : MicroOp} (genuine : packet.Genuine)
    (member : op ∈ packet.waiting) (next : Option Successor) :
    (packet.entry next op).asSuccessor = packet.successor := by
  have mark := Instruction.speculative_of_mem genuine.expanded (List.mem_append_right _ member)
  rw [ReorderEntry.asSuccessor, entry, successor, mark]

/-- The branch of a packet stands in the last place. -/
theorem Genuine.succ_eq_length {packet : Packet} {op : MicroOp} {place : Nat}
    (genuine : packet.Genuine) (found : packet.waiting[place]? = some op)
    (branches : op.opcode = .jump) : place + 1 = packet.waiting.length := by
  rcases List.getElem?_eq_some_iff.mp found with ⟨inside, rfl⟩
  have split : packet.waiting =
      packet.waiting.take place ++ packet.waiting[place] :: packet.waiting.drop (place + 1) := by
    rw [← List.drop_eq_getElem_cons inside, List.take_append_drop]
  have ended := (genuine.last_of_jump split branches).1
  rw [List.drop_eq_nil_iff] at ended
  omega

end Packet

/-- The first entry of the packets stands for the oldest of them. -/
theorem head?_entriesBefore {packets : List Packet} (genuine : ∀ packet ∈ packets, packet.Genuine) :
    (entriesBefore none packets).head?.map ReorderEntry.asSuccessor = successorOf none packets := by
  cases packets with
  | nil => rfl
  | cons packet later =>
    have whole := genuine packet List.mem_cons_self
    rcases List.exists_cons_of_ne_nil whole.pending with ⟨op, rest, front⟩
    rw [entriesBefore, front, List.map_cons, List.cons_append, List.head?_cons, Option.map_some,
      whole.asSuccessor_entry (front ▸ List.mem_cons_self), successorOf]

/-- A branch among the entries has the entry behind it for its successor, if
there is one, and no other entry has a successor. -/
theorem successor_entriesBefore {packets : List Packet}
    (genuine : ∀ packet ∈ packets, packet.Genuine) {place : Nat} {entry : ReorderEntry}
    (found : (entriesBefore none packets)[place]? = some entry) :
    entry.successor =
      if entry.opcode = .jump then
        (entriesBefore none packets)[place + 1]?.map ReorderEntry.asSuccessor
      else none := by
  induction packets generalizing place with
  | nil => cases found
  | cons packet later inductionHypothesis =>
    have whole := genuine packet List.mem_cons_self
    have others : ∀ packet ∈ later, packet.Genuine :=
      fun other member => genuine other (List.mem_cons_of_mem _ member)
    rw [entriesBefore] at found ⊢
    by_cases own : place < packet.waiting.length
    · rw [List.getElem?_append_left (by rwa [List.length_map]), List.getElem?_map,
        Option.map_eq_some_iff] at found
      rcases found with ⟨op, waits, rfl⟩
      by_cases branches : op.opcode = .jump
      · -- a branch ends its packet, so behind its entry stands the first one of the next packet
        have last := whole.succ_eq_length waits branches
        have behind : place + 1 - packet.waiting.length = 0 := by omega
        rw [List.getElem?_append_right (by rw [List.length_map]; omega), List.length_map, behind,
          ← List.head?_eq_getElem?, head?_entriesBefore others]
        simp only [Packet.entry, branches, if_true]
      · simp only [Packet.entry, branches, if_false]
    · have beyond : packet.waiting.length ≤ place := Nat.not_lt.mp own
      rw [List.getElem?_append_right (by rwa [List.length_map]), List.length_map] at found
      rw [List.getElem?_append_right (by rw [List.length_map]; omega), List.length_map,
        Nat.sub_add_comm beyond]
      exact inductionHypothesis others found

namespace Processor

variable {configuration : Configuration} {kind : PredictorKind} {executable : Executable}
  {output : Output} {start reached : Processor}

theorem Condition.exists_holds (condition : reached.Condition) :
    ∃ packets, reached.inFlight.Holds packets := by
  cases condition with
  | going running stocked => exact ⟨_, stocked.holds⟩
  | exited stopped holds stalled => exact ⟨[], holds⟩

/-- Between two cycles, a branch at the head of the buffers has an entry behind
it, unless execute is stalled. -/
theorem Condition.followed {op : MicroOp} {entry : ReorderEntry} (condition : reached.Condition)
    (awake : reached.stalled.execute = false) (head : reached.inFlight.head? = some (op, entry)) :
    ∃ packet later rest, reached.inFlight.Holds (packet :: later) ∧ packet.waiting = op :: rest ∧
      entry = packet.entry (successorOf none later) op ∧ (op.opcode = .jump → later ≠ []) := by
  cases condition with
  | going running stocked =>
    rename_i stock
    have holds := stocked.holds
    cases packets : stock.packets with
    | nil =>
      rw [stocked.stalled, packets] at awake
      cases awake
    | cons packet later =>
      rw [packets] at holds
      rcases List.exists_cons_of_ne_nil (stocked.genuine_head packets).pending with
          ⟨first, rest, front⟩
      rw [holds.head?_cons front] at head
      cases head
      exact ⟨packet, later, rest, holds, front, rfl,
        fun branches => (stocked.packets_of_jump packets front branches).2⟩
  | exited stopped holds stalled =>
    rw [stalled] at awake
    cases awake

/-- The execute stage takes whatever stands at the head, if it does not fail. -/
theorem Executes.op_eq {before after : Processor} {packet : Packet} {op : MicroOp}
    {later : List Packet} {execution : Execution}
    (executes : Executes before packet op later execution after) : execution.op = some op := by
  cases executes <;> rfl

/-- Successors are right, and in time.  After any run in which no cycle has
failed, an entry of the reorder buffer has a successor only if it is a branch;
a successor that is known is the next entry, with its location and mark; and a
branch that does not know its successor is the last entry.  If the execute
stage is not stalled, a branch at the head knows its successor, so the stage
executes what stands at the head and never waits. -/
theorem successors_in_time {count : Nat} {traces : List CycleTrace}
    (loads : load configuration kind executable output = .ok start)
    (ran : start.runCycles count = .ok (traces, reached)) :
    (∀ index entry, reached.inFlight.reorder.get? index = some entry →
      (entry.opcode ≠ .jump → entry.successor = none) ∧
      (∀ successor, entry.opcode = .jump → entry.successor = some successor →
        ∃ next, reached.inFlight.reorder.get? (index + 1) = some next ∧
          next.location = successor.location ∧ next.speculative = successor.speculative) ∧
      (entry.opcode = .jump → entry.successor = none →
        index + 1 = reached.inFlight.reorder.size)) ∧
    (reached.stalled.execute = false →
      ∀ op entry, reached.inFlight.head? = some (op, entry) →
        (op.opcode = .jump → ∃ successor, entry.successor = some successor) ∧
        ∀ execution after, execute.Yields reached execution after →
          execution.op = some op) := by
  have condition := (loaded_of_load loads).condition_of_runCycles ran
  constructor
  · intro index entry found
    rcases condition.exists_holds with ⟨packets, holds⟩
    rw [← Ring.getElem?_toList, holds.reorder] at found
    have known := successor_entriesBefore holds.genuine found
    rw [← holds.reorder, Ring.getElem?_toList] at known
    refine ⟨?_, ?_, ?_⟩
    · intro plain
      rw [known, if_neg plain]
    · intro successor branches told
      rw [told, if_pos branches] at known
      rcases Option.map_eq_some_iff.mp known.symm with ⟨next, behind, rfl⟩
      exact ⟨next, behind, rfl, rfl⟩
    · intro branches untold
      rw [untold, if_pos branches, eq_comm, Option.map_eq_none_iff, ← Ring.getElem?_toList,
        List.getElem?_eq_none_iff, Ring.length_toList] at known
      have inside := (List.getElem?_eq_some_iff.mp found).1
      rw [← holds.reorder, Ring.length_toList] at inside
      exact Nat.le_antisymm inside known
  · intro awake op entry head
    rcases condition.followed awake head with ⟨packet, later, rest, holds, front, rfl, followed⟩
    constructor
    · intro branches
      rcases List.exists_cons_of_ne_nil (followed branches) with ⟨next, others, rfl⟩
      exact ⟨next.successor, by rw [Packet.entry, if_pos branches]; rfl⟩
    · intro execution after executes
      exact (execute_cons holds front followed executes).op_eq

/-- The branch at 5 stands at the head of a full reorder buffer.  It has been
predicted to be taken, and the entry behind it comes from its target. -/
theorem successors_in_time_full :
    ∃ start traces reached op entry next,
      load cramped .gshare threeRounds .accepting = .ok start ∧
      start.runCycles 19 = .ok (traces, reached) ∧ reached.inFlight.reorder.isFull = true ∧
      reached.inFlight.head? = some (op, entry) ∧ op.opcode = .jump ∧
      (∃ successor, entry.successor = some successor) ∧
      reached.inFlight.reorder.get? 1 = some next ∧ next.location = 3 ∧
      next.speculative = true := by
  have computed : (runLoaded cramped .gshare threeRounds .accepting 19).toOption.any
      (fun ends => decide (ends.2.inFlight.reorder.isFull = true ∧
        ends.2.stalled.execute = false) && ends.2.inFlight.head?.any fun (op, entry) =>
          decide (op.opcode = .jump ∧ ends.2.inFlight.reorder.get? 0 = some entry ∧
            entry.opcode = .jump ∧ entry.successor = some ⟨3, true⟩)) = true := by
    decide +kernel
  rcases exists_of_runLoaded computed with ⟨start, traces, reached, loads, ran, ends⟩
  rw [Bool.and_eq_true, decide_eq_true_eq, Option.any_eq_true] at ends
  rcases ends with ⟨⟨full, awake⟩, ⟨op, entry⟩, head, shape⟩
  rcases of_decide_eq_true shape with ⟨branches, first, jumps, told⟩
  rcases successors_in_time loads ran with ⟨right, inTime⟩
  rcases (right 0 entry first).2.1 _ jumps told with ⟨next, behind, location, mark⟩
  exact ⟨start, traces, reached, op, entry, next, loads, ran, full, head, branches,
    (inTime awake op entry head).1 branches, behind, location, mark⟩

end Processor
end BranchPipeline
