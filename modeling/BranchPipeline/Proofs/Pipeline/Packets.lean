import BranchPipeline.Processor.InFlight
import BranchPipeline.Proofs.Buffer.Capacity
import BranchPipeline.Proofs.Instruction.Groups

namespace BranchPipeline

open Attempt

/-!
# Instructions in flight

The two buffers hold micro-operations, but what enters them is an instruction,
and what a branch waits for is the next instruction.  A packet is one
instruction in flight, with the part of its group that has been executed and
the part that still waits.  `InFlight.Holds` says that the buffers hold the
waiting parts of a list of packets, the oldest first; each operation of the
buffers is then described by what it does to the packets.
-/

/-- An instruction in flight. -/
structure Packet where
  location : UInt64
  /-- The text that was decoded. -/
  token : String
  speculative : Bool
  executed : List MicroOp
  waiting : List MicroOp

namespace Packet

/-- The two parts are the group of the instruction, and something waits. -/
structure Genuine (packet : Packet) : Prop where
  expanded : Instruction.expand packet.token packet.speculative =
    .ok (packet.executed ++ packet.waiting)
  pending : packet.waiting ≠ []

/-- A packet is known to the branch in front of it by its location. -/
def successor (packet : Packet) : Successor := ⟨packet.location, packet.speculative⟩

/-- The entry of a waiting micro-operation, if the given successor is known. -/
def entry (packet : Packet) (next : Option Successor) (op : MicroOp) : ReorderEntry where
  opcode := op.opcode
  location := packet.location
  speculative := op.speculative
  successor := if op.opcode = .jump then next else none

/-- The packet after its first waiting micro-operation. -/
def stepped (packet : Packet) (op : MicroOp) (rest : List MicroOp) : Packet :=
  { packet with executed := packet.executed ++ [op], waiting := rest }

/-- A genuine packet stays so as long as something waits. -/
theorem Genuine.stepped {packet : Packet} {op : MicroOp} {rest : List MicroOp}
    (genuine : packet.Genuine) (front : packet.waiting = op :: rest) (more : rest ≠ []) :
    (packet.stepped op rest).Genuine where
  expanded := by
    have expanded := genuine.expanded
    rw [front] at expanded
    rwa [Packet.stepped, List.append_assoc, List.singleton_append]
  pending := more

/-- A waiting branch is the last micro-operation, and not the only one of its
instruction. -/
theorem Genuine.last_of_jump {packet : Packet} {front later : List MicroOp} {op : MicroOp}
    (genuine : packet.Genuine) (split : packet.waiting = front ++ op :: later)
    (branches : op.opcode = .jump) : later = [] ∧ packet.executed ++ front ≠ [] := by
  have expanded := genuine.expanded
  rw [split, ← List.append_assoc] at expanded
  exact Instruction.last_of_jump expanded branches

/-- A branch that waits first is alone, and something has been executed before
it. -/
theorem Genuine.alone_of_jump {packet : Packet} {rest : List MicroOp} {op : MicroOp}
    (genuine : packet.Genuine) (front : packet.waiting = op :: rest)
    (branches : op.opcode = .jump) : rest = [] ∧ packet.executed ≠ [] := by
  have split : packet.waiting = [] ++ op :: rest := front
  have ended := genuine.last_of_jump split branches
  rwa [List.append_nil] at ended

/-- In front of a waiting micro-operation there is no branch. -/
theorem Genuine.plain_of_mem {packet : Packet} {front later : List MicroOp} {op other : MicroOp}
    (genuine : packet.Genuine) (split : packet.waiting = front ++ op :: later)
    (member : other ∈ front) : other.opcode ≠ .jump := by
  intro branches
  rcases List.append_of_mem member with ⟨before, after, rfl⟩
  rw [List.append_assoc, List.cons_append] at split
  have ended := (genuine.last_of_jump split branches).1
  simp at ended

end Packet

/-- What a branch in front of the packets has for a successor. -/
def successorOf (next : Option Successor) : List Packet → Option Successor
  | [] => next
  | packet :: _ => some packet.successor

/-- The entries of all packets, where the last one has the given successor. -/
def entriesBefore (next : Option Successor) : List Packet → List ReorderEntry
  | [] => []
  | packet :: later =>
    packet.waiting.map (packet.entry (successorOf next later)) ++ entriesBefore next later

/-- The packets after the first waiting micro-operation of the oldest one. -/
def advance (packet : Packet) (op : MicroOp) (rest : List MicroOp) (later : List Packet) :
    List Packet :=
  if rest = [] then later else packet.stepped op rest :: later

/-- Executing the first micro-operation takes it from those that wait. -/
theorem flatMap_waiting_advance {packet : Packet} {op : MicroOp} {rest : List MicroOp}
    (front : packet.waiting = op :: rest) (later : List Packet) :
    (packet :: later).flatMap Packet.waiting =
      op :: (advance packet op rest later).flatMap Packet.waiting := by
  rw [List.flatMap_cons, front, advance]
  split
  · rename_i done
    rw [done]
    rfl
  · rfl

/-- Its entry is taken from the others. -/
theorem entriesBefore_advance {packet : Packet} {op : MicroOp} {rest : List MicroOp}
    (front : packet.waiting = op :: rest) (next : Option Successor) (later : List Packet) :
    entriesBefore next (packet :: later) =
      packet.entry (successorOf next later) op ::
        entriesBefore next (advance packet op rest later) := by
  rw [entriesBefore, front, advance]
  split
  · rename_i done
    rw [done]
    rfl
  · rfl

theorem length_entriesBefore (next : Option Successor) (packets : List Packet) :
    (entriesBefore next packets).length = (packets.flatMap Packet.waiting).length := by
  induction packets with
  | nil => rfl
  | cons packet later inductionHypothesis =>
    rw [entriesBefore, List.flatMap_cons, List.length_append, List.length_append, List.length_map,
      inductionHypothesis]

/-- A packet at the end tells the one in front of it its successor. -/
theorem entriesBefore_append_singleton (next : Option Successor) (packets : List Packet)
    (packet : Packet) :
    entriesBefore next (packets ++ [packet]) =
      entriesBefore (some packet.successor) packets ++
        packet.waiting.map (packet.entry next) := by
  induction packets with
  | nil => simp [entriesBefore, successorOf]
  | cons first later inductionHypothesis =>
    rw [List.cons_append, entriesBefore, inductionHypothesis, entriesBefore, List.append_assoc]
    cases later <;> rfl

namespace InFlight

/-- How many micro-operations fit into both buffers. -/
def capacity (inFlight : InFlight) : Nat :=
  min inFlight.reorder.capacity inFlight.pipeline.capacity

/-- The buffers hold the waiting parts of these packets. -/
structure Holds (inFlight : InFlight) (packets : List Packet) : Prop where
  pipeline : inFlight.pipeline.toList = packets.flatMap Packet.waiting
  reorder : inFlight.reorder.toList = entriesBefore none packets
  genuine : ∀ packet ∈ packets, packet.Genuine

section

variable {inFlight : InFlight} {packets : List Packet}

theorem holds_of_create {reorderCapacity pipelineCapacity : Nat}
    (made : create reorderCapacity pipelineCapacity = .ok inFlight) :
    inFlight.Holds [] ∧ inFlight.capacity = min reorderCapacity pipelineCapacity := by
  rcases bind_eq_ok_iff.mp made with ⟨reorder, reorderMade, made⟩
  rcases bind_eq_ok_iff.mp made with ⟨pipeline, pipelineMade, made⟩
  cases made
  have reorderMade := (Ring.allocate_eq_ok.mp reorderMade).2
  have pipelineMade := (Ring.allocate_eq_ok.mp pipelineMade).2
  refine ⟨⟨Ring.toList_of_create pipelineMade, Ring.toList_of_create reorderMade, ?_⟩, ?_⟩
  · intro packet member
    cases member
  · rw [capacity, Ring.capacity_of_create reorderMade, Ring.capacity_of_create pipelineMade]

/-- Buffers that memory has room for are small enough for every sum that is
formed of their sizes. -/
theorem lt_byteBound_of_create {reorderCapacity pipelineCapacity : Nat}
    (made : create reorderCapacity pipelineCapacity = .ok inFlight) :
    min reorderCapacity pipelineCapacity < Ring.byteBound := by
  rcases bind_eq_ok_iff.mp made with ⟨reorder, reorderMade, -⟩
  exact Nat.lt_of_le_of_lt (Nat.min_le_left _ _) (Ring.allocate_eq_ok.mp reorderMade).1

/-- The free slots are those that no waiting micro-operation takes. -/
theorem Holds.free_eq (holds : inFlight.Holds packets) :
    inFlight.free = inFlight.capacity - (packets.flatMap Packet.waiting).length := by
  rw [free, Ring.free_eq, Ring.free_eq, holds.pipeline, holds.reorder, length_entriesBefore,
    capacity]
  omega

theorem Holds.length_le (holds : inFlight.Holds packets) :
    (packets.flatMap Packet.waiting).length ≤ inFlight.capacity := by
  have reorder := inFlight.reorder.length_toList_le
  have pipeline := inFlight.pipeline.length_toList_le
  rw [holds.reorder, length_entriesBefore] at reorder
  rw [holds.pipeline] at pipeline
  exact Nat.le_min.mpr ⟨reorder, pipeline⟩

theorem Holds.head?_nil (holds : inFlight.Holds []) : inFlight.head? = none := by
  rw [head?, Ring.oldest?_eq, holds.pipeline]
  rfl

/-- The oldest micro-operation and its entry are those of the oldest packet. -/
theorem Holds.head?_cons {packet : Packet} {op : MicroOp} {rest : List MicroOp}
    (holds : inFlight.Holds (packet :: packets)) (front : packet.waiting = op :: rest) :
    inFlight.head? = some (op, packet.entry (successorOf none packets) op) := by
  rw [head?, Ring.oldest?_eq, Ring.oldest?_eq, holds.pipeline, holds.reorder, entriesBefore,
    List.flatMap_cons, front]
  rfl

/-- Retiring advances the oldest packet. -/
theorem Holds.retire {packet : Packet} {op : MicroOp} {rest : List MicroOp}
    (holds : inFlight.Holds (packet :: packets)) (front : packet.waiting = op :: rest) :
    inFlight.retire.Holds (advance packet op rest packets) where
  pipeline := by
    rw [InFlight.retire, Ring.toList_remove, holds.pipeline, flatMap_waiting_advance front]
    rfl
  reorder := by
    rw [InFlight.retire, Ring.toList_remove, holds.reorder, entriesBefore_advance front]
    rfl
  genuine := by
    rw [advance]
    split
    · intro other member
      exact holds.genuine other (List.mem_cons_of_mem _ member)
    · rename_i more
      intro other member
      rcases List.mem_cons.mp member with rfl | member
      · exact (holds.genuine packet List.mem_cons_self).stepped front more
      · exact holds.genuine other (List.mem_cons_of_mem _ member)

/-- Flushed buffers hold nothing, also after a micro-operation was retired. -/
theorem holds_flush (inFlight : InFlight) :
    inFlight.flush.Holds [] ∧ inFlight.flush.retire.Holds [] := by
  constructor
  · exact ⟨Ring.toList_flush _, Ring.toList_flush _, fun _ member => nomatch member⟩
  · refine ⟨?_, ?_, fun _ member => nomatch member⟩
    · rw [InFlight.retire, Ring.toList_remove, flush, Ring.toList_flush]
      rfl
    · rw [InFlight.retire, Ring.toList_remove, flush, Ring.toList_flush]
      rfl

@[simp]
theorem capacity_retire (inFlight : InFlight) : inFlight.retire.capacity = inFlight.capacity := by
  rw [capacity, InFlight.retire, Ring.capacity_remove, Ring.capacity_remove, capacity]

@[simp]
theorem capacity_flush (inFlight : InFlight) : inFlight.flush.capacity = inFlight.capacity := rfl

/-! ## Issuing a group -/

/-- Telling the youngest entry its successor makes the last packet know it.
Only a branch takes note, and a branch is the last one of its packet. -/
theorem Holds.toList_annotate (holds : inFlight.Holds packets) (next : Successor) :
    (inFlight.annotate next).reorder.toList = entriesBefore (some next) packets := by
  cases reversed : packets.reverse with
  | nil =>
    rw [List.reverse_eq_nil_iff] at reversed
    subst reversed
    have empty := holds.reorder
    rw [annotate, Ring.youngest?_eq, empty]
    exact empty
  | cons last front =>
    rw [List.reverse_eq_cons_iff] at reversed
    subst reversed
    have genuine := holds.genuine last (by simp)
    rcases List.eq_nil_or_concat last.waiting with none | ⟨earlier, op, split⟩
    · exact absurd none genuine.pending
    · rw [List.concat_eq_append] at split
      -- in front of the last micro-operation there is no branch, so nothing changes there
      have same : earlier.map (last.entry (some next)) = earlier.map (last.entry none) := by
        apply List.map_congr_left
        intro other member
        have different := genuine.plain_of_mem split member
        rw [Packet.entry, Packet.entry, if_neg different, if_neg different]
      have entries := holds.reorder
      rw [entriesBefore_append_singleton, split, List.map_append, List.map_singleton,
        ← List.append_assoc] at entries
      have youngest : inFlight.reorder.youngest? = some (last.entry none op) := by
        rw [Ring.youngest?_eq, entries, List.getLast?_concat]
      rw [entriesBefore_append_singleton, split, List.map_append, List.map_singleton, same,
        ← List.append_assoc, annotate, youngest]
      simp only [ReorderEntry.awaitsSuccessor, Packet.entry]
      by_cases branches : op.opcode = .jump
      · have last : inFlight.reorder.size - 1 =
            (entriesBefore (some last.successor) front.reverse ++
              earlier.map (last.entry none)).length := by
          rw [← Ring.length_toList, entries, List.length_append, List.length_singleton,
            Nat.add_sub_cancel]
        simp only [branches, beq_self_eq_true, if_true, Option.isNone_none, Bool.and_self]
        rw [Ring.toList_replace, entries, last, List.set_append_right _ _ (Nat.le_refl _),
          Nat.sub_self, List.set_cons_zero]
      · have other : (op.opcode == MicroOpcode.jump) = false := beq_eq_false_iff_ne.mpr branches
        simp only [other, branches, if_false, Bool.false_and, Bool.false_eq_true]
        simpa only [Packet.entry, branches, if_false] using entries

theorem pipeline_annotate (inFlight : InFlight) (next : Successor) :
    (inFlight.annotate next).pipeline = inFlight.pipeline ∧
      (inFlight.annotate next).capacity = inFlight.capacity := by
  unfold annotate
  split
  · split
    · exact ⟨rfl, congrArg (min · _) (Ring.capacity_replace _ _ _)⟩
    · exact ⟨rfl, rfl⟩
  · exact ⟨rfl, rfl⟩

/-- A group for which both buffers have room is appended to both. -/
theorem exists_appendAll (group : List MicroOp) (location : UInt64) (inFlight : InFlight)
    (reorderRoom : inFlight.reorder.toList.length + group.length ≤ inFlight.reorder.capacity)
    (pipelineRoom : inFlight.pipeline.toList.length + group.length ≤ inFlight.pipeline.capacity) :
    ∃ after, (group.forM fun op => append op location).Yields inFlight () after ∧
      after.reorder.toList = inFlight.reorder.toList ++ group.map (.ofMicroOp · location) ∧
      after.pipeline.toList = inFlight.pipeline.toList ++ group ∧
      after.capacity = inFlight.capacity := by
  induction group generalizing inFlight with
  | nil => exact ⟨inFlight, rfl, (List.append_nil _).symm, (List.append_nil _).symm, rfl⟩
  | cons op group inductionHypothesis =>
    rw [List.length_cons] at reorderRoom pipelineRoom
    rcases inFlight.reorder.exists_add (.ofMicroOp op location) (by omega) with
        ⟨reorder, reorderTakes, reorderHolds, reorderSlots⟩
    rcases inFlight.pipeline.exists_add op (by omega) with
        ⟨pipeline, pipelineTakes, pipelineHolds, pipelineSlots⟩
    rcases inductionHypothesis ⟨reorder, pipeline⟩
      (by rw [reorderHolds, reorderSlots, List.length_append, List.length_singleton]; omega)
      (by rw [pipelineHolds, pipelineSlots, List.length_append, List.length_singleton]; omega) with
        ⟨after, appends, entries, ops, slots⟩
    refine ⟨after, ?_, ?_, ?_, ?_⟩
    · show (append op location >>= fun _ => group.forM fun op => append op location).Yields _ _ _
      refine yields_bind.mpr ⟨(), ⟨reorder, pipeline⟩, ?_, appends⟩
      simp [append, reorderTakes, pipelineTakes]
    · rw [entries, reorderHolds, List.append_assoc, List.singleton_append, List.map_cons]
    · rw [ops, pipelineHolds, List.append_assoc, List.singleton_append]
    · rw [slots, capacity, capacity, reorderSlots, pipelineSlots]

/-- Issuing a fresh instruction for which there is room appends its packet. -/
theorem Holds.exists_issue {packet : Packet} (holds : inFlight.Holds packets)
    (genuine : packet.Genuine) (fresh : packet.executed = [])
    (room : packet.waiting.length ≤ inFlight.free) :
    ∃ after, (issue packet.waiting packet.location).Yields inFlight () after ∧
      after.Holds (packets ++ [packet]) ∧ after.capacity = inFlight.capacity := by
  have expanded := genuine.expanded
  rw [fresh, List.nil_append] at expanded
  cases group : packet.waiting with
  | nil => exact absurd group genuine.pending
  | cons first rest =>
    have mark : first.speculative = packet.speculative :=
      Instruction.speculative_of_mem expanded (by rw [group]; exact List.mem_cons_self)
    let annotated := inFlight.annotate ⟨packet.location, first.speculative⟩
    have kept := pipeline_annotate inFlight ⟨packet.location, first.speculative⟩
    have entries : annotated.reorder.toList = entriesBefore (some packet.successor) packets := by
      rw [Packet.successor, ← mark]
      exact holds.toList_annotate _
    have ops : annotated.pipeline.toList = packets.flatMap Packet.waiting :=
      (congrArg Ring.toList kept.1).trans holds.pipeline
    have same : annotated.capacity = inFlight.capacity := kept.2
    have filled := holds.length_le
    rw [holds.free_eq, group, ← same] at room
    rw [← same] at filled
    have within : (packets.flatMap Packet.waiting).length + (first :: rest).length ≤
        min annotated.reorder.capacity annotated.pipeline.capacity := by
      change _ ≤ min annotated.reorder.capacity annotated.pipeline.capacity at filled
      change _ ≤ min annotated.reorder.capacity annotated.pipeline.capacity - _ at room
      omega
    rcases Nat.le_min.mp within with ⟨reorderRoom, pipelineRoom⟩
    rcases exists_appendAll (first :: rest) packet.location annotated
      (by rw [entries, length_entriesBefore]; exact reorderRoom)
      (by rw [ops]; exact pipelineRoom) with ⟨after, appends, allEntries, allOps, slots⟩
    refine ⟨after, ?_, ⟨?_, ?_, ?_⟩, slots.trans same⟩
    · simp only [issue, yields_bind, yields_modify]
      exact ⟨(), _, rfl, appends⟩
    · rw [allOps, ops, List.flatMap_append, List.flatMap_singleton, group]
    · rw [allEntries, entries, entriesBefore_append_singleton, group]
      congr 1
      apply List.map_congr_left
      intro op _
      simp [ReorderEntry.ofMicroOp, Packet.entry]
    · intro other member
      rcases List.mem_append.mp member with member | member
      · exact holds.genuine other member
      · rcases List.mem_singleton.mp member with rfl
        exact genuine

end

end InFlight
end BranchPipeline
