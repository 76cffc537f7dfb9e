import BranchPipeline.Proofs.Machine.Agreement
import BranchPipeline.Proofs.Pipeline.Program

namespace BranchPipeline

open Attempt

/-!
# The sequential machine

What a program means does not depend on a pipeline.  The sequential machine
takes the instruction at its counter, executes its micro-operations one after
the other, and goes on behind it or where a branch sends it.  It uses the
definitions of the micro-operations that the execute stage uses, and nothing
else of the processor.
-/

/-- The first micro-operation of an instruction and those behind it; every
instruction has a first one. -/
def Instruction.begin (token : String) : Except DecodeFault (MicroOp × List MicroOp) :=
  match expanded : expand token false with
  | .ok (op :: rest) => .ok (op, rest)
  | .ok [] => absurd (Instruction.length_pos expanded) (Nat.lt_irrefl 0)
  | .error fault => .error fault

theorem Instruction.begin_eq_ok {token : String} {op : MicroOp} {rest : List MicroOp}
    (expanded : expand token false = .ok (op :: rest)) :
    Instruction.begin token = .ok (op, rest) := by
  unfold Instruction.begin
  split <;> rename_i found <;> rw [expanded] at found <;> cases found
  rfl

/-- A machine that executes one micro-operation after the other. -/
structure Sequential where
  machine : Machine
  /-- The location of the current instruction. -/
  counter : UInt64
  /-- What remains of the current instruction, once it has begun. -/
  rest : List MicroOp
  running : Bool

namespace Sequential

/-- The machine that is about to execute the first instruction of a text
section. -/
def start (machine : Machine) (textSection : Section) : Sequential :=
  ⟨machine, textSection.start.toUInt64, [], true⟩

/-- The micro-operation that is executed next, and what then remains of its
instruction. -/
def next (state : Sequential) : Except Fault (MicroOp × List MicroOp) :=
  match state.rest with
  | op :: rest => .ok (op, rest)
  | [] => do
    let token ← state.machine.memory.tokenAt state.counter
    (Instruction.begin token).mapError Fault.decode

/-- Runs an operation of the machine. -/
def onMachine {α : Type} (operation : Attempt Machine Fault α) : Attempt Sequential Fault α :=
  onPart Sequential.machine (fun machine state => { state with machine }) id operation

/-- The counter after a micro-operation that is not a branch, behind which
`rest` remains of its instruction. -/
def advanced (state : Sequential) (rest : List MicroOp) : UInt64 :=
  if rest.isEmpty then state.counter + 1 else state.counter

/-- Executes a micro-operation behind which `rest` remains of its instruction. -/
def execute (op : MicroOp) (rest : List MicroOp) : Attempt Sequential Fault Unit := do
  let state ← get
  match op.opcode with
  | .jump =>
    let resolution ← onMachine (Machine.resolve op state.counter)
    modify fun state => { state with counter := resolution.next, rest := [] }
  | _ =>
    let exits ← onMachine (Machine.act op)
    modify fun state => { state with counter := state.advanced rest, rest, running := !exits }

/-- Executes the next micro-operation. -/
def step : Attempt Sequential Fault MicroOp := do
  let (op, rest) ← ofExcept id (← get).next
  execute op rest
  return op

/-- Executes so many micro-operations, or fewer if the program ends before;
gives them in order. -/
def run (state : Sequential) : Nat → Except Fault (List MicroOp × Sequential)
  | 0 => .ok ([], state)
  | count + 1 => do
    let (ops, before) ← state.run count
    if before.running then
      match step.perform before with
      | (.ok op, after) => .ok (ops ++ [op], after)
      | (.error fault, _) => .error fault
    else .ok (ops, before)

/-- Whether the next micro-operation stores to a cell from which fetch can
read. -/
def storesText (state : Sequential) : Bool :=
  match state.next with
  | .ok (op, _) => (state.machine.storeAddress? op).any fun address =>
      state.machine.memory.inText address.index.toUInt64
  | .error _ => false

/-- None of the first micro-operations stores to a cell from which fetch can
read. -/
def KeepsText (state : Sequential) (count : Nat) : Prop :=
  ∀ earlier < count, ∀ ops reached, state.run earlier = .ok (ops, reached) →
    reached.storesText = false

variable {state after : Sequential} {op : MicroOp} {rest ops : List MicroOp} {machine : Machine}

theorem yields_onMachine {α : Type} {operation : Attempt Machine Fault α} {value : α} :
    (onMachine operation).Yields state value after ↔
      ∃ machine, operation.Yields state.machine value machine ∧ after = { state with machine } :=
  yields_onPart

theorem yields_step (first : state.next = .ok (op, rest))
    (executes : (execute op rest).Yields state () after) : step.Yields state op after := by
  simp only [step, yields_bind, yields_get, yields_ofExcept, and_assoc, exists_and_left,
    exists_eq_left, first]
  exact ⟨(op, rest), rfl, (), after, executes, yields_pure.mpr ⟨rfl, rfl⟩⟩

/-- A branch goes where its resolution says. -/
theorem yields_step_of_jump (first : state.next = .ok (op, rest)) (branches : op.opcode = .jump)
    {resolution : Machine.Resolution}
    (resolves : (Machine.resolve op state.counter).Yields state.machine resolution machine) :
    step.Yields state op { state with machine, counter := resolution.next, rest := [] } := by
  refine yields_step first ?_
  simp only [execute, branches, yields_bind, yields_get, yields_onMachine, yields_modify, and_assoc,
    exists_and_left, exists_eq_left]
  exact ⟨resolution, _, ⟨machine, resolves, rfl⟩, rfl⟩

/-- Every other micro-operation is followed by the next one of its instruction
or by the next instruction. -/
theorem yields_step_of_act (first : state.next = .ok (op, rest)) (plain : op.opcode ≠ .jump)
    {exits : Bool} (acts : (Machine.act op).Yields state.machine exits machine) :
    step.Yields state op
      { machine, counter := state.advanced rest, rest, running := !exits } := by
  refine yields_step first ?_
  simp only [execute, yields_bind, yields_get, yields_onMachine, yields_modify, and_assoc,
    exists_and_left, exists_eq_left]
  exact ⟨exits, _, ⟨machine, acts, rfl⟩, rfl⟩

theorem run_succ {count : Nat} {last : Sequential} (ran : state.run count = .ok (ops, after))
    (running : after.running = true) (steps : step.Yields after op last) :
    state.run (count + 1) = .ok (ops ++ [op], last) := by
  rw [run, ran]
  show (if after.running then _ else _) = _
  rw [if_pos running, show step.perform after = _ from steps]

/-- Where the next micro-operation stores, there is no text. -/
theorem outside_of_storesText (first : state.next = .ok (op, rest))
    (spares : state.storesText = false) {address : Address}
    (stores : state.machine.storeAddress? op = some address) :
    state.machine.memory.inText address.index.toUInt64 = false := by
  simpa only [storesText, first, stores, Option.any_some] using spares

theorem KeepsText.of_le {fewer more : Nat} (keeps : state.KeepsText more) (few : fewer ≤ more) :
    state.KeepsText fewer := by
  intro earlier before
  exact keeps earlier (Nat.lt_of_lt_of_le before few)

/-- It can be computed that a run keeps the text. -/
theorem keepsText_of_check {count : Nat}
    (checked : (List.range count).all (fun earlier =>
      (state.run earlier).toOption.all fun reached => !reached.2.storesText) = true) :
    state.KeepsText count := by
  intro earlier before ops reached ran
  have held := List.all_eq_true.mp checked earlier (List.mem_range.mpr before)
  rw [ran] at held
  simpa only [Except.toOption, Option.all_some, Bool.not_eq_true'] using held

end Sequential
end BranchPipeline
