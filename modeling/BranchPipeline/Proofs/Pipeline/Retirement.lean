import BranchPipeline.Proofs.Pipeline.CycleCount
import BranchPipeline.Proofs.Pipeline.Origin

namespace BranchPipeline

open Attempt

/-!
# The ledger of a run

A trace says which micro-operation was executed, but not to which instruction it
belonged.  That can be reconstructed: groups are executed in the order in which
they were decoded, and a mispredicted branch drops all that wait.  The ledger of
a run does this bookkeeping from the traces alone, and notes of every executed
part the machine that it found.  What waits in the ledger is then what waits in
the packets in flight.
-/

/-- A micro-operation as a part of the group of its instruction. -/
structure Part where
  location : UInt64
  group : List MicroOp
  index : Nat
  deriving DecidableEq, Repr

namespace Part

def op? (part : Part) : Option MicroOp := part.group[part.index]?

/-- The part ends its group. -/
def IsLast (part : Part) : Prop := part.index + 1 = part.group.length

instance (part : Part) : Decidable part.IsLast :=
  inferInstanceAs (Decidable (_ = _))

/-- The part that comes next in the same group. -/
def following (part : Part) : Part := { part with index := part.index + 1 }

/-- The parts of a group, the first one first. -/
def ofGroup (location : UInt64) (group : List MicroOp) : List Part :=
  (List.range' 0 group.length).map fun index => ⟨location, group, index⟩

end Part

/-- A part that has been executed, with the machine that it found. -/
structure Retirement extends Part where
  machine : Machine

namespace Retirement

def op? (retirement : Retirement) : Option MicroOp := retirement.toPart.op?

def branches (retirement : Retirement) : Bool := retirement.op?.any (·.opcode == .jump)

/-- The address at which a program goes on behind the group: the number in the
accumulator behind a branch whose condition was met, and else the next one. -/
def onward (retirement : Retirement) : UInt64 :=
  match retirement.op? with
  | some ⟨.jump, some (.condition condition), _, _⟩ =>
    if condition.isMet retirement.machine.registers.flags then
      (retirement.machine.registers.content .rax).bytes
    else retirement.location + 1
  | _ => retirement.location + 1

end Retirement

/-- What has been executed, and what has been issued and waits. -/
structure Ledger where
  retired : List Retirement := []
  waiting : List Part := []

namespace Ledger

/-- The first part that waits has been executed. -/
def retire (ledger : Ledger) (machine : Machine) : Ledger where
  retired := ledger.retired ++ ledger.waiting.head?.toList.map fun part => { part with machine }
  waiting := ledger.waiting.tail

/-- What waits has been dropped. -/
def drop (ledger : Ledger) : Ledger := { ledger with waiting := [] }

/-- A group has been issued. -/
def issue (ledger : Ledger) : Option Decoded → Ledger
  | none => ledger
  | some decoded =>
    { ledger with waiting := ledger.waiting ++ Part.ofGroup decoded.location decoded.group }

/-- Takes in one cycle, which found this machine. -/
def note (ledger : Ledger) (machine : Machine) (trace : CycleTrace) : Ledger :=
  let executed := if trace.executed.isSome then ledger.retire machine else ledger
  (if trace.mispredicts then executed.drop else executed).issue trace.decoded

end Ledger

/-- The ledger after so many cycles, none of which has failed. -/
def Processor.ledger (start : Processor) : Nat → Ledger
  | 0 => {}
  | count + 1 =>
    match start.runCycles count with
    | .ok (_, before) =>
      match before.runCycle with
      | (.ok (trace, _), _) => (start.ledger count).note before.machine trace
      | (.error _, _) => start.ledger count
    | .error _ => start.ledger count

/-- The parts of a packet that wait. -/
def Packet.parts (packet : Packet) : List Part :=
  (List.range' packet.executed.length packet.waiting.length).map fun index =>
    ⟨packet.location, packet.executed ++ packet.waiting, index⟩

namespace Packet

variable {packet : Packet} {op : MicroOp} {rest : List MicroOp}

/-- The part that waits first. -/
def firstPart (packet : Packet) : Part :=
  ⟨packet.location, packet.executed ++ packet.waiting, packet.executed.length⟩

/-- The packet has had its first part executed on this machine. -/
def retirement (packet : Packet) (machine : Machine) : Retirement :=
  { packet.firstPart with machine }

theorem parts_of_fresh (fresh : packet.executed = []) :
    packet.parts = Part.ofGroup packet.location packet.waiting := by
  rw [parts, fresh, List.length_nil, List.nil_append, Part.ofGroup]

theorem op?_firstPart (front : packet.waiting = op :: rest) : packet.firstPart.op? = some op := by
  rw [firstPart, Part.op?, List.getElem?_append_right (Nat.le_refl _), Nat.sub_self, front]
  rfl

theorem isLast_firstPart_iff (front : packet.waiting = op :: rest) :
    packet.firstPart.IsLast ↔ rest = [] := by
  show packet.executed.length + 1 = (packet.executed ++ packet.waiting).length ↔ rest = []
  rw [List.length_append, front, List.length_cons, ← List.length_eq_zero_iff]
  omega

theorem firstPart_stepped (front : packet.waiting = op :: rest) :
    (packet.stepped op rest).firstPart = packet.firstPart.following := by
  rw [firstPart, stepped, firstPart, Part.following, front, List.append_assoc,
    List.length_append]
  rfl

theorem parts_of_front (front : packet.waiting = op :: rest) :
    packet.parts = packet.firstPart :: (packet.stepped op rest).parts := by
  rw [parts, front, List.length_cons, List.range'_succ, List.map_cons, parts, stepped, firstPart,
    List.append_assoc, List.length_append, front]
  rfl

/-- Executing the first micro-operation takes its part away. -/
theorem flatMap_parts_advance (front : packet.waiting = op :: rest) (later : List Packet) :
    (packet :: later).flatMap parts =
      packet.firstPart :: (advance packet op rest later).flatMap parts := by
  rw [List.flatMap_cons, parts_of_front front, List.cons_append, advance]
  split
  · rename_i done
    subst done
    rfl
  · rw [List.flatMap_cons]

theorem op?_retirement (front : packet.waiting = op :: rest) (machine : Machine) :
    (packet.retirement machine).op? = some op :=
  op?_firstPart front

theorem branches_retirement (front : packet.waiting = op :: rest) (machine : Machine) :
    (packet.retirement machine).branches = (op.opcode == .jump) := by
  rw [Retirement.branches, op?_retirement front, Option.any_some]

end Packet

/-- A branch goes on where the execute stage resolves it to go. -/
theorem Retirement.onward_of_resolve {retirement : Retirement} {op : MicroOp}
    {resolution : Machine.Resolution} {after : Machine} (found : retirement.op? = some op)
    (branches : op.opcode = .jump)
    (resolves : (Machine.resolve op retirement.location).Yields retirement.machine resolution
      after) :
    retirement.onward = resolution.next := by
  rcases op with ⟨opcode, operand, width, speculative⟩
  cases branches
  unfold Machine.resolve at resolves
  split at resolves
  · rename_i condition named
    cases named
    simp only [yields_bind, yields_get, and_assoc, exists_and_left, exists_eq_left,
      Machine.yields_readRegister, yields_ofExcept, yields_pure] at resolves
    rcases resolves with ⟨value, reads, address, positive, rfl, -⟩
    have number : (retirement.machine.registers.content .rax).bytes = value := by
      unfold RegisterFile.read at reads
      split at reads
      · rename_i held content
        cases reads
        rw [Machine.accumulator, Width.truncate_quad]
        exact congrArg Content.bytes content
      · cases reads
    rw [onward, found, Address.index_of_ofInt64 positive]
    simp only [number]
    rw [Nat.toUInt64_eq, UInt64.ofNat_toNat]
  · cases resolves

namespace Ledger

variable {ledger : Ledger} {packet : Packet} {packets : List Packet}

/-- Executing the first micro-operation that waits retires its part. -/
theorem retire_of_packets {op : MicroOp} {rest : List MicroOp}
    (waiting : ledger.waiting = (packet :: packets).flatMap Packet.parts)
    (front : packet.waiting = op :: rest) (machine : Machine) :
    ledger.retire machine = ⟨ledger.retired ++ [packet.retirement machine],
      (advance packet op rest packets).flatMap Packet.parts⟩ := by
  rw [retire, waiting, Packet.flatMap_parts_advance front]
  rfl

theorem waiting_issue (waiting : ledger.waiting = packets.flatMap Packet.parts)
    (fresh : packet.executed = []) (token : String) :
    (ledger.issue (some ⟨packet.location, token, packet.waiting⟩)).waiting =
      (packets ++ [packet]).flatMap Packet.parts := by
  rw [List.flatMap_append, List.flatMap_singleton, Packet.parts_of_fresh fresh, ← waiting]
  rfl

theorem retired_issue (ledger : Ledger) (decoded : Option Decoded) :
    (ledger.issue decoded).retired = ledger.retired := by
  cases decoded <;> rfl

end Ledger

namespace Processor

variable {start before after : Processor} {stock reached : Stock}

theorem ledger_succ {count : Nat} {earlier : List CycleTrace} {trace : CycleTrace} {flow : Flow}
    (ran : start.runCycles count = .ok (earlier, before))
    (once : before.runCycle = (.ok (trace, flow), after)) :
    start.ledger (count + 1) = (start.ledger count).note before.machine trace := by
  rw [ledger, ran]
  simp only [once]

end Processor
end BranchPipeline
