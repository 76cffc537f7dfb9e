import BranchPipeline.Proofs.Machine.RegisterBytes
import BranchPipeline.Proofs.Pipeline.Origin

namespace BranchPipeline

/-!
# The write system call

The program names the cells that it wants to be written by the first address
and the number, both any eight bytes.  The end of the range is computed with
saturation, so a number near the largest one cannot wrap around into memory:
the range is either inside, and then exactly these cells are handed over, or
the call fails before the output hears of it.
-/

namespace Memory

variable {memory : Memory} {start length : Nat} {cells : List Cell}

/-- The cells are the ones from `start` on, as many as `length` says, and memory has
every one of them. -/
def Holds (memory : Memory) (start length : Nat) (cells : List Cell) : Prop :=
  cells.map some = (List.range length).map fun offset => memory.cells[start + offset]?

theorem holds_extract (inside : start + length ≤ memory.size) :
    memory.Holds start length (memory.cells.extract start (start + length)).toList := by
  have whole : min (start + length) memory.cells.size = start + length := Nat.min_eq_left inside
  apply List.ext_getElem?
  intro offset
  rw [List.getElem?_map, List.getElem?_map, Array.getElem?_toList]
  by_cases within : offset < length
  · rw [Array.getElem?_extract_of_lt (by omega), List.getElem?_range within]
    have bound : start + offset < memory.cells.size :=
      Nat.lt_of_lt_of_le (Nat.add_lt_add_left within start) inside
    rw [Option.map_some, Option.map_some, Array.getElem?_eq_getElem bound]
  · rw [Array.getElem?_eq_none (by rw [Array.size_extract]; omega),
      List.getElem?_eq_none (by rw [List.length_range]; omega)]
    rfl

/-- The end of a slice, which does not reach beyond the largest cell number. -/
def sliceEnd (start length : Nat) : Nat := min (start + length) maxSliceEnd

/-- A range that lies in memory is handed out whole. -/
theorem slice_of_le (small : memory.size < 2 ^ 63) (inside : start + length ≤ memory.size) :
    ∃ cells, memory.slice ⟨start⟩ length = .ok cells ∧ memory.Holds start length cells := by
  have exact_end : min (start + length) maxSliceEnd = start + length := by
    rw [maxSliceEnd]
    omega
  refine ⟨_, ?_, holds_extract inside⟩
  rw [slice, exact_end]
  exact if_neg (Nat.not_lt.mpr inside)

/-- A range that does not lie in memory is refused. -/
theorem slice_of_lt (small : memory.size < 2 ^ 63) (beyond : memory.size < start + length) :
    memory.slice ⟨start⟩ length =
      .error (.outOfBounds (sliceEnd start length - 1) memory.size) := by
  have refused : memory.size < sliceEnd start length := by
    rw [sliceEnd, maxSliceEnd]
    omega
  exact if_pos refused

/-- Where a slice is taken, its ends are in order and both inside. -/
theorem slice_eq_ok (reachable : start ≤ maxSliceEnd)
    (taken : memory.slice ⟨start⟩ length = .ok cells) :
    cells = (memory.cells.extract start (sliceEnd start length)).toList ∧
      start ≤ sliceEnd start length ∧ sliceEnd start length ≤ memory.size := by
  have inOrder : start ≤ sliceEnd start length :=
    Nat.le_min.mpr ⟨Nat.le_add_right start length, reachable⟩
  by_cases beyond : memory.size < sliceEnd start length
  · have refused : memory.slice ⟨start⟩ length =
        .error (.outOfBounds (sliceEnd start length - 1) memory.size) := if_pos beyond
    cases taken.symm.trans refused
  · have handedOut : memory.slice ⟨start⟩ length =
        .ok (memory.cells.extract start (sliceEnd start length)).toList := if_neg beyond
    exact ⟨Except.ok.inj (taken.symm.trans handedOut), inOrder, Nat.not_lt.mp beyond⟩

end Memory

namespace Address

variable {location : UInt64}

theorem ofInt64_of_nonnegative (nonnegative : 0 ≤ location.toInt64.toInt) :
    ofInt64 location.toInt64 = .ok ⟨location.toNat⟩ := by
  have accepted : ofInt64 location.toInt64 = .ok ⟨location.toInt64.toInt.toNat⟩ := by
    refine if_neg ?_
    rw [Int64.lt_iff_toInt_lt]
    exact Int.not_lt.mpr nonnegative
  have same := index_of_ofInt64 accepted
  rw [accepted]
  congr

theorem ofInt64_of_negative (negative : location.toInt64.toInt < 0) :
    ofInt64 location.toInt64 = .error (.negativeAddress location.toInt64) :=
  if_pos (Int64.lt_iff_toInt_lt.mpr negative)

end Address

namespace Output

theorem ranges_of_write {output written : Output} {cells : List Cell}
    (writes : output.write cells = .ok written) : written.ranges = output.ranges ++ [cells] := by
  unfold write at writes
  split at writes
  · cases writes
    exact List.reverse_cons
  · cases writes

end Output

namespace Machine

open Attempt

variable {machine : Machine} {start length : UInt64}

/-- The registers of a machine ask for the writing of `length` cells from `start` on. -/
structure Requests (machine : Machine) (start length : UInt64) : Prop where
  number : ∃ accumulator, machine.registers.content .rax = .number accumulator ∧
    accumulator.toNat % 256 = 1
  start : machine.registers.content .rsi = .number start
  length : machine.registers.content .rdx = .number length

namespace Requests

variable (requests : machine.Requests start length)

include requests

theorem readsNumber :
    (readRegister (accumulator .byte)).Yields machine writeCall (machine.countReads [.rax]) := by
  rcases requests.number with ⟨value, holds, low⟩
  have same : Width.byte.truncate value = writeCall := by
    apply UInt64.toNat_inj.mp
    rw [Width.toNat_truncate]
    exact low
  refine yields_readRegister.mpr ⟨?_, rfl⟩
  rw [RegisterFile.read, accumulator, holds]
  exact congrArg Except.ok same

theorem readsStart :
    (readRegister (.full .rsi)).Yields (machine.countReads [.rax]) start
      (machine.countReads [.rax, .rsi]) :=
  yields_readRegister.mpr ⟨RegisterFile.read_full requests.start, rfl⟩

theorem readsLength :
    (readRegister (.full .rdx)).Yields (machine.countReads [.rax, .rsi]) length
      (machine.countReads [.rax, .rsi, .rdx]) :=
  yields_readRegister.mpr ⟨RegisterFile.read_full requests.length, rfl⟩

/-- A system call with the number of the write call fails as that does. -/
theorem fails {fault : Fault} {after : Machine}
    (fails : writeCells.Fails (machine.countReads [.rax]) fault after) :
    systemCall.Fails machine fault after :=
  fails_bind.mpr (.inr ⟨_, _, requests.readsNumber, fails_bind.mpr (.inl fails)⟩)

/-- A negative address is found before the number of cells is read. -/
theorem fails_of_negative (negative : start.toInt64.toInt < 0) :
    systemCall.Fails machine (.memory (.negativeAddress start.toInt64))
      (machine.countReads [.rax, .rsi]) := by
  refine requests.fails (fails_bind.mpr (.inr ⟨_, _, requests.readsStart, ?_⟩))
  refine fails_bind.mpr (.inl (fails_ofExcept.mpr ⟨_, ?_, rfl, rfl⟩))
  exact Address.ofInt64_of_negative negative

variable (nonnegative : 0 ≤ start.toInt64.toInt)

include nonnegative

/-- Behind the reads stand the look at memory and the output. -/
theorem perform_writeCells :
    writeCells.perform (machine.countReads [.rax]) =
      (do
        let cells ← ofExcept Fault.memory (machine.memory.slice ⟨start.toNat⟩ length.toNat)
        let output ← ofExcept Fault.output (machine.output.write cells)
        set { machine.countReads [.rax, .rsi, .rdx] with output } :
          Attempt Machine Fault Unit).perform (machine.countReads [.rax, .rsi, .rdx]) := by
  rw [writeCells, perform_bind, requests.readsStart]
  show (ofExcept Fault.memory (Address.ofInt64 start.toInt64) >>= _ :
    Attempt Machine Fault Unit).perform _ = _
  rw [Address.ofInt64_of_nonnegative nonnegative]
  show (readRegister (.full .rdx) >>= _ : Attempt Machine Fault Unit).perform _ = _
  rw [perform_bind, requests.readsLength]
  rfl

theorem fails_of_slice {fault : MemoryFault}
    (refused : machine.memory.slice ⟨start.toNat⟩ length.toNat = .error fault) :
    systemCall.Fails machine (.memory fault) (machine.countReads [.rax, .rsi, .rdx]) := by
  apply requests.fails
  rw [Fails, requests.perform_writeCells nonnegative, refused]
  rfl

variable {cells : List Cell}
  (taken : machine.memory.slice ⟨start.toNat⟩ length.toNat = .ok cells)

include taken

theorem fails_of_refusal {refusal : String}
    (refused : machine.output.write cells = .error refusal) :
    systemCall.Fails machine (.output refusal) (machine.countReads [.rax, .rsi, .rdx]) := by
  apply requests.fails
  rw [Fails, requests.perform_writeCells nonnegative, taken, ← Fails]
  refine fails_bind.mpr (.inr ⟨cells, _, yields_pure.mpr ⟨rfl, rfl⟩, fails_bind.mpr (.inl ?_)⟩)
  exact fails_ofExcept.mpr ⟨refusal, refused, rfl, rfl⟩

theorem yields_of_write {output : Output} (written : machine.output.write cells = .ok output) :
    systemCall.Yields machine false { machine.countReads [.rax, .rsi, .rdx] with output } := by
  have writes : writeCells.Yields (machine.countReads [.rax]) ()
      { machine.countReads [.rax, .rsi, .rdx] with output } := by
    rw [Yields, requests.perform_writeCells nonnegative, taken, ← Yields]
    refine yields_bind.mpr ⟨cells, _, yields_pure.mpr ⟨rfl, rfl⟩, ?_⟩
    exact yields_bind.mpr ⟨output, _, yields_ofExcept.mpr ⟨written, rfl⟩, yields_set.mpr rfl⟩
  refine yields_bind.mpr ⟨_, _, requests.readsNumber, ?_⟩
  exact yields_bind.mpr ⟨(), _, writes, yields_pure.mpr ⟨rfl, rfl⟩⟩

end Requests

end Machine

namespace Processor

open Attempt

variable {processor : Processor} {op : MicroOp} {entry : ReorderEntry}

theorem execute_of_call (oldest : processor.inFlight.head? = some (op, entry))
    (calls : op.opcode = .systemCall) :
    execute.perform processor =
      (do
        let flow ← systemCall
        modify (retire op)
        return { flow, op := some op } : Attempt Processor Fault Execution).perform processor := by
  rw [execute, perform_bind, perform_get]
  simp only [oldest, calls]

/-- Where a system call returns, execution retires it. -/
theorem execute_of_returns (oldest : processor.inFlight.head? = some (op, entry))
    (calls : op.opcode = .systemCall) {machine : Machine}
    (returns : Machine.systemCall.Yields processor.machine false machine) :
    execute.Yields processor { op := some op } (retire op { processor with machine }) := by
  rw [Yields, execute_of_call oldest calls, ← Yields]
  have proceeds : systemCall.Yields processor .proceed { processor with machine } :=
    yields_bind.mpr ⟨false, _, yields_onPart.mpr ⟨machine, returns, rfl⟩,
      yields_pure.mpr ⟨rfl, rfl⟩⟩
  refine yields_bind.mpr ⟨_, _, proceeds, yields_bind.mpr ⟨(), _, yields_modify.mpr rfl, ?_⟩⟩
  exact yields_pure.mpr ⟨rfl, rfl⟩

theorem execute_of_fails (oldest : processor.inFlight.head? = some (op, entry))
    (calls : op.opcode = .systemCall) {machine : Machine} {fault : Fault}
    (fails : Machine.systemCall.Fails processor.machine fault machine) :
    execute.Fails processor fault { processor with machine } := by
  rw [Fails, execute_of_call oldest calls, ← Fails]
  refine fails_bind.mpr (.inl (fails_bind.mpr (.inl ?_)))
  exact fails_onPart.mpr ⟨fault, machine, fails, rfl, rfl⟩

/-- The write call hands over exactly the cells that it is asked for, once, and otherwise
leaves all but the counts of accesses; a range that is not in memory never gets to the
output, and nothing is looked up outside memory. -/
theorem execute_write_call {start length : UInt64}
    (oldest : processor.inFlight.head? = some (op, entry)) (calls : op.opcode = .systemCall)
    (requests : processor.machine.Requests start length)
    (small : processor.machine.memory.size < 2 ^ 63) :
    let machine := processor.machine
    let memory := machine.memory
    let counted : Machine := machine.countReads [.rax, .rsi, .rdx]
    let stop := Memory.sliceEnd start.toNat length.toNat
    (0 ≤ start.toInt64.toInt → start.toNat + length.toNat ≤ memory.size →
      ∃ cells, memory.Holds start.toNat length.toNat cells ∧
        (∀ output, machine.output.write cells = .ok output →
          output.ranges = machine.output.ranges ++ [cells] ∧
          execute.Yields processor { op := some op }
            (retire op { processor with machine := { counted with output } })) ∧
        ∀ refusal, machine.output.write cells = .error refusal →
          execute.Fails processor (.output refusal) { processor with machine := counted }) ∧
    (start.toInt64.toInt < 0 →
      execute.Fails processor (.memory (.negativeAddress start.toInt64))
        { processor with machine := machine.countReads [.rax, .rsi] }) ∧
    (0 ≤ start.toInt64.toInt → memory.size < start.toNat + length.toNat →
      execute.Fails processor (.memory (.outOfBounds (stop - 1) memory.size))
        { processor with machine := counted }) ∧
    ∀ cells, memory.slice ⟨start.toNat⟩ length.toNat = .ok cells →
      cells = (memory.cells.extract start.toNat stop).toList ∧
        start.toNat ≤ stop ∧ stop ≤ memory.size := by
  intro machine memory counted stop
  refine ⟨?inside, ?negative, ?beyond, ?lookups⟩
  case inside =>
    intro nonnegative inside
    rcases Memory.slice_of_le small inside with ⟨cells, taken, holds⟩
    refine ⟨cells, holds, ?_, ?_⟩
    · intro output written
      refine ⟨Output.ranges_of_write written, ?_⟩
      exact execute_of_returns oldest calls (requests.yields_of_write nonnegative taken written)
    · intro refusal refused
      exact execute_of_fails oldest calls (requests.fails_of_refusal nonnegative taken refused)
  case negative =>
    intro negative
    exact execute_of_fails oldest calls (requests.fails_of_negative negative)
  case beyond =>
    intro nonnegative beyond
    have refused := Memory.slice_of_lt small beyond
    exact execute_of_fails oldest calls (requests.fails_of_slice nonnegative refused)
  case lookups =>
    intro cells taken
    exact Memory.slice_eq_ok (Nat.le_of_lt_succ start.toNat_lt) taken

/-- A program that writes its data, which end with memory. -/
def printing : Executable :=
  .ofParts ["mov rsi 6", "mov rdx 2", "mov rax 1", "syscall"] [7, -8]

/-- They are handed over when the call is the oldest micro-operation. -/
theorem execute_write_call_printing :
    ∃ start traces reached op after,
      load cramped .gshare printing .accepting = .ok start ∧
      start.runCycles 8 = .ok (traces, reached) ∧
      reached.machine.Requests 6 2 ∧ reached.machine.memory.size < 2 ^ 63 ∧
      execute.Yields reached { op := some op } after ∧
      after.machine.output.ranges = [[.word 7, .word (-8)]] := by
  have computed : (runLoaded cramped .gshare printing .accepting 8).toOption.any (fun ends =>
      decide (ends.2.inFlight.head?.map (·.1.opcode) = some .systemCall) &&
      decide (ends.2.machine.registers.content .rax = .number 1) &&
      decide (ends.2.machine.registers.content .rsi = .number 6) &&
      decide (ends.2.machine.registers.content .rdx = .number 2) &&
      decide (ends.2.machine.memory.size = 8) &&
      decide (ends.2.machine.memory.cells[6]? = some (.word 7)) &&
      decide (ends.2.machine.memory.cells[7]? = some (.word (-8))) &&
      decide (ends.2.machine.output.latestFirst = []) &&
      decide (ends.2.machine.output.refusal? [] [.word 7, .word (-8)] = none)) = true := by
    decide +kernel
  rcases exists_of_runLoaded computed with ⟨start, traces, reached, loads, ran, holds⟩
  simp only [Bool.and_eq_true, decide_eq_true_eq, and_assoc] at holds
  rcases holds with ⟨head, number, first, count, size, seventh, eighth, nothing,
    takes⟩
  rcases Option.map_eq_some_iff.mp head with ⟨⟨op, entry⟩, oldest, calls⟩
  have requests : reached.machine.Requests 6 2 := ⟨⟨1, number, by decide⟩, first, count⟩
  have small : reached.machine.memory.size < 2 ^ 63 := by
    rw [size]
    decide
  have inside : (6 : UInt64).toNat + (2 : UInt64).toNat ≤ reached.machine.memory.size := by
    rw [size]
    decide
  rcases (execute_write_call oldest calls requests small).1 (by decide) inside with
    ⟨cells, written, accepted, -⟩
  have range : cells.map some = [.word 7, .word (-8)].map some := by
    rw [written, List.map_cons, List.map_cons, ← seventh, ← eighth]
    rfl
  cases List.map_inj_right (fun _ _ => Option.some.inj) |>.mp range
  have handed := accepted
    { reached.machine.output with latestFirst := [[.word 7, .word (-8)]] }
    (by rw [Output.write, nothing, takes])
  exact ⟨start, traces, reached, op, _, loads, ran, requests, small, handed.2, rfl⟩

end Processor

end BranchPipeline
