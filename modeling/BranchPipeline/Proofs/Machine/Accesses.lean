import BranchPipeline.Proofs.Machine.Effects

namespace BranchPipeline

open Attempt

/-!
# Nothing depends on the counts of accesses

Reading through the counted path changes the counts of accesses, so a debugger
that looks at the machine leaves its traces there.  No operation of the machine
looks at the counts.  From two machines that differ in nothing else it comes to
the same end, be it a value or a fault, and the machines then differ in nothing
else again.  It has also counted the same accesses in both, so what relates the
counts before and does not mind the same access in both relates them
afterwards.
-/

/-- A relation between counts that stays if the same access is counted in both. -/
structure AccessTally.Steady (related : AccessTally → AccessTally → Prop) : Prop where
  registerRead ⦃first second : AccessTally⦄ (register : Register) (before : related first second) :
    related (first.registerRead register) (second.registerRead register)
  registerWritten ⦃first second : AccessTally⦄ (register : Register)
    (before : related first second) :
    related (first.registerWritten register) (second.registerWritten register)
  cellRead ⦃first second : AccessTally⦄ (inText : Bool) (before : related first second) :
    related (first.cellRead inText) (second.cellRead inText)
  cellWritten ⦃first second : AccessTally⦄ (inText : Bool) (before : related first second) :
    related (first.cellWritten inText) (second.cellWritten inText)

/-- Nothing has to be known of the counts. -/
theorem AccessTally.steady_true : Steady fun _ _ => True :=
  ⟨fun _ _ _ _ => trivial, fun _ _ _ _ => trivial, fun _ _ _ _ => trivial, fun _ _ _ _ => trivial⟩

theorem Memory.size_of_set {memory changed : Memory} {address : Address} {cell : Cell}
    (stored : memory.set address cell = .ok changed) : changed.size = memory.size := by
  rcases set_eq_ok_iff.mp stored with ⟨bound, rfl⟩
  exact Array.size_set bound

namespace Machine

/-- The machines differ at most in their counts of accesses, which are related.
How an access is counted depends on the number of the cells and on the place of
the text section among them; no operation changes either. -/
structure Abreast (related : AccessTally → AccessTally → Prop) (size : Nat) (range : Section)
    (first second : Machine) : Prop extends Untouched first second where
  accesses : related first.accesses second.accesses
  size : first.memory.size = size
  textSection : first.memory.textSection = range

section

variable {related : AccessTally → AccessTally → Prop} {size : Nat} {range : Section}
  {first second : Machine}

theorem Abreast.recount (abreast : first.Abreast related size range second)
    {one two : AccessTally} (accesses : related one two) :
    Abreast related size range { first with accesses := one } { second with accesses := two } where
  registers := abreast.registers
  memory := abreast.memory
  output := abreast.output
  accesses := accesses
  size := abreast.size
  textSection := abreast.textSection

theorem Abreast.setFlags (abreast : first.Abreast related size range second) (flags : Flags) :
    (first.setFlags flags).Abreast related size range (second.setFlags flags) where
  registers := congrArg (fun file : RegisterFile => file.setFlags flags) abreast.registers
  memory := abreast.memory
  output := abreast.output
  accesses := abreast.accesses
  size := abreast.size
  textSection := abreast.textSection

/-- The operation does not look at the counts of accesses. -/
abbrev CountsAlike {α : Type} (related : AccessTally → AccessTally → Prop) (size : Nat)
    (range : Section) (attempt : Attempt Machine Fault α) : Prop :=
  attempt.Respects (Abreast related size range)

/-- An operation may look at what is not counted. -/
theorem countsAlike_get {α : Type} {rest : Machine → Attempt Machine Fault α}
    (alike : ∀ machine, CountsAlike related size range (rest machine))
    (same : ∀ ⦃first second : Machine⦄, first.Untouched second → rest second = rest first) :
    CountsAlike related size range (get >>= rest) := by
  refine respects_get_bind ?_
  intro first second abreast
  rw [same abreast.toUntouched]
  exact alike first abreast

variable (steady : AccessTally.Steady related)

include steady

theorem Abreast.countReads (abreast : first.Abreast related size range second)
    (registers : List Register) :
    (first.countReads registers).Abreast related size range (second.countReads registers) := by
  refine abreast.recount ?_
  induction registers generalizing first second with
  | nil => exact abreast.accesses
  | cons register registers inductionHypothesis =>
    exact inductionHypothesis (abreast.recount (steady.registerRead register abreast.accesses))

theorem Abreast.writeRegister (abreast : first.Abreast related size range second)
    (ref : RegisterRef) (value : UInt64) :
    (first.writeRegister ref value).Abreast related size range
      (second.writeRegister ref value) where
  registers := congrArg (·.write ref value) abreast.registers
  memory := abreast.memory
  output := abreast.output
  accesses := steady.registerWritten ref.register abreast.accesses
  size := abreast.size
  textSection := abreast.textSection

theorem Abreast.writeText (abreast : first.Abreast related size range second)
    (register : Register) (token : String) :
    (first.writeText register token).Abreast related size range
      (second.writeText register token) where
  registers := congrArg (·.writeText register token) abreast.registers
  memory := abreast.memory
  output := abreast.output
  accesses := steady.registerWritten register abreast.accesses
  size := abreast.size
  textSection := abreast.textSection

theorem countsAlike_readRegister (ref : RegisterRef) :
    CountsAlike related size range (readRegister ref) := by
  refine Respects.bind (respects_modify ?_) fun _ => ?_
  · exact fun _ _ abreast => abreast.countReads steady [ref.register]
  · refine countsAlike_get (fun _ => respects_ofExcept _ _) ?_
    intro first second untouched
    rw [untouched.registers]

theorem countsAlike_readCell (address : Address) :
    CountsAlike related size range (readCell address) := by
  refine respects_get_bind ?_
  intro first second abreast
  rw [abreast.memory]
  cases first.memory.get address with
  | error fault => exact ⟨rfl, abreast⟩
  | ok cell =>
    exact ⟨rfl, ⟨abreast.registers, rfl, abreast.output⟩, steady.cellRead _ abreast.accesses,
      abreast.size, abreast.textSection⟩

theorem countsAlike_readWord (address : Address) :
    CountsAlike related size range (readWord address) :=
  (countsAlike_readCell steady address).bind fun _ => respects_ofExcept _ _

theorem countsAlike_readToken (address : Address) :
    CountsAlike related size range (readToken address) :=
  (countsAlike_readCell steady address).bind fun _ => respects_ofExcept _ _

theorem countsAlike_writeCell (address : Address) (cell : Cell) :
    CountsAlike related size range (writeCell address cell) := by
  refine respects_get_bind ?_
  intro first second abreast
  rw [abreast.memory]
  cases stored : first.memory.set address cell with
  | error fault => exact ⟨rfl, abreast⟩
  | ok memory =>
    exact ⟨rfl, ⟨abreast.registers, rfl, abreast.output⟩, steady.cellWritten _ abreast.accesses,
      (Memory.size_of_set stored).trans abreast.size,
      (Memory.textSection_of_set stored).trans abreast.textSection⟩

theorem countsAlike_effectiveAddress (expression : String) :
    CountsAlike related size range (effectiveAddress expression) := by
  refine respects_get_bind ?_
  intro first second abreast
  have finds : CountsAlike related size range (do
      let value ← ofExcept Fault.address (first.registers.address expression)
      ofExcept Fault.memory (Address.ofInt64 value)) :=
    (respects_ofExcept _ _).bind fun _ => respects_ofExcept _ _
  rw [abreast.registers]
  apply finds
  exact abreast.countReads steady _

theorem countsAlike_readOperand (op : MicroOp) :
    CountsAlike related size range (readOperand op) := by
  unfold readOperand
  split
  · exact (countsAlike_readRegister steady _).bind fun _ => respects_pure _
  · exact (countsAlike_effectiveAddress steady _).bind fun _ => countsAlike_readWord steady _
  · exact respects_pure _
  · exact respects_throw _
  · exact respects_throw _

theorem countsAlike_writeOperand (op : MicroOp) (value : UInt64) :
    CountsAlike related size range (writeOperand op value) := by
  unfold writeOperand
  split
  · exact respects_modify fun _ _ abreast => abreast.writeRegister steady _ _
  · exact (countsAlike_effectiveAddress steady _).bind fun _ => countsAlike_writeCell steady _ _
  · exact respects_throw _
  · exact respects_throw _
  · exact respects_throw _

theorem countsAlike_setAccumulator (value : Int64) :
    CountsAlike related size range (setAccumulator value) :=
  respects_modify fun _ _ abreast => abreast.writeRegister steady _ _

theorem countsAlike_operate (op : MicroOp) : CountsAlike related size range (operate op) := by
  unfold operate
  split
  · exact (countsAlike_readOperand steady op).bind fun _ => countsAlike_setAccumulator steady _
  · exact (countsAlike_readRegister steady _).bind fun _ => countsAlike_writeOperand steady op _
  · exact (countsAlike_readOperand steady op).bind fun _ =>
      (countsAlike_readRegister steady _).bind fun _ => countsAlike_setAccumulator steady _
  · exact (countsAlike_readOperand steady op).bind fun _ =>
      (countsAlike_readRegister steady _).bind fun _ => countsAlike_setAccumulator steady _
  · exact (countsAlike_readOperand steady op).bind fun _ =>
      (countsAlike_readRegister steady _).bind fun _ =>
        respects_modify fun _ _ abreast => abreast.setFlags _
  · exact respects_pure _
  · exact respects_pure _
  · exact respects_pure _

theorem countsAlike_resolve (op : MicroOp) (location : UInt64) :
    CountsAlike related size range (resolve op location) := by
  unfold resolve
  split
  · refine countsAlike_get ?_ ?_
    · intro machine
      exact (countsAlike_readRegister steady _).bind fun _ =>
        (respects_ofExcept _ _).bind fun _ => respects_pure _
    · intro first second untouched
      rw [untouched.registers]
  · exact respects_throw _

theorem countsAlike_writeCells : CountsAlike related size range writeCells := by
  refine (countsAlike_readRegister steady _).bind fun start => ?_
  refine (respects_ofExcept _ _).bind fun address => ?_
  refine (countsAlike_readRegister steady _).bind fun length => ?_
  refine respects_get_bind ?_
  intro first second abreast
  rw [abreast.memory, abreast.output]
  cases first.memory.slice address length.toNat with
  | error fault => exact ⟨rfl, abreast⟩
  | ok cells =>
    show Alike (Abreast related size range)
      ((ofExcept Fault.output (first.output.write cells) >>= _).perform first)
      ((ofExcept Fault.output (first.output.write cells) >>= _).perform second)
    cases first.output.write cells with
    | error fault => exact ⟨rfl, abreast⟩
    | ok output =>
      exact ⟨rfl, ⟨abreast.registers, rfl, rfl⟩, abreast.accesses, abreast.size,
        abreast.textSection⟩

theorem countsAlike_systemCall : CountsAlike related size range systemCall := by
  refine (countsAlike_readRegister steady _).bind fun number => ?_
  split
  · exact (countsAlike_writeCells steady).bind fun _ => respects_pure _
  · exact respects_pure _

end

end Machine
end BranchPipeline
