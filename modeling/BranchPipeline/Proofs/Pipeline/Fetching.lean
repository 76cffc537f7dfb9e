import BranchPipeline.Proofs.Executable.Sections
import BranchPipeline.Proofs.Pipeline.Outstanding
import BranchPipeline.Proofs.Pipeline.Program

namespace BranchPipeline

open Attempt

/-!
# Fetch never fails

Wherever a prediction sends it, fetch finds an instruction: outside the text
section there is always the one that does nothing, and inside it there are
nothing but instructions, as long as the program stores none of its data there.
The layout of an executable sees to that.
-/

namespace Executable

/-- The cells of the text section can be numbered by words. -/
def Addressable (executable : Executable) : Prop := executable.textSection.stop < 0x8000000000000000

instance (executable : Executable) : Decidable executable.Addressable :=
  inferInstanceAs (Decidable (executable.textSection.stop < 0x8000000000000000))

/-- So it is in every executable whose header has been read. -/
theorem addressable_of_ofCells {cells : List Cell} {executable : Executable}
    (made : ofCells cells = .ok executable) : executable.Addressable := by
  unfold ofCells at made
  split at made
  · rename_i textStart dataStart rest
    simp only at made
    split at made
    · split at made
      · cases made
      · cases made
        have bound := dataStart.toInt_lt
        show dataStart.toInt.toNat < 0x8000000000000000
        omega
    · cases made
  · cases made

end Executable

/-- A location below all negative words is an address. -/
theorem Address.ofInt64_of_lt {location : UInt64} (small : location.toNat < 0x8000000000000000) :
    ∃ address, Address.ofInt64 location.toInt64 = .ok address := by
  have nonnegative : ¬ location.toInt64 < 0 := by
    rw [Int64.lt_iff_toInt_lt]
    show ¬ location.toBitVec.toInt < 0
    have width : location.toBitVec.toNat < 0x8000000000000000 := small
    rw [BitVec.toInt_eq_toNat_cond]
    omega
  unfold Address.ofInt64
  rw [if_neg nonnegative]
  exact ⟨_, rfl⟩

/-- There is an instruction to fetch at every location. -/
def Memory.Readable (memory : Memory) : Prop :=
  ∀ location, ∃ token, memory.tokenAt location = .ok token

/-- The image lies in the lowest cells. -/
theorem Memory.getElem?_of_load {size index : Nat} {image : List Cell} {textSection : Section}
    {memory : Memory} (loads : (blank size).load image textSection = .ok memory)
    (inside : index < image.length) : memory.cells[index]? = image[index]? := by
  unfold load at loads
  split at loads
  · cases loads
  · cases loads
    rw [Array.getElem?_append_left (by simpa using inside)]
    simp

namespace Processor

variable {configuration : Configuration} {kind : PredictorKind} {executable : Executable}
  {output : Output} {start before : Processor} {source : Memory} {room : Nat}
  {position : UInt64}

theorem Loaded.readable (loaded : Loaded configuration kind executable output start)
    (addressable : executable.Addressable) : start.machine.memory.Readable := by
  have textSection := loaded.textSection_eq
  rcases loaded.machine with ⟨memory, loads, machine⟩
  have same : start.machine.memory = memory := by
    rw [machine]
    rfl
  rw [same] at textSection ⊢
  intro location
  cases inside : memory.inText location with
  | false => exact ⟨idleToken, Memory.tokenAt_eq_ok_iff.mpr (Or.inr ⟨inside, rfl⟩)⟩
  | true =>
    have range := inside
    rw [Memory.inText, textSection, Bool.and_eq_true, decide_eq_true_eq, decide_eq_true_eq,
      UInt64.le_iff_toNat_le, UInt64.lt_iff_toNat_lt] at range
    have ordered := executable.layout.ordered
    have bounded := executable.layout.bounded
    rw [Executable.Addressable] at addressable
    have words : 0x8000000000000000 < UInt64.size := by decide
    have first : executable.textSection.start.toUInt64.toNat = executable.textSection.start :=
      UInt64.toNat_ofNat_of_lt' (by omega)
    have last : executable.textSection.stop.toUInt64.toNat = executable.textSection.stop :=
      UInt64.toNat_ofNat_of_lt' (by omega)
    rw [first, last] at range
    rcases executable.exists_token range.1 range.2 with ⟨text, found⟩
    have small : location.toNat < 0x8000000000000000 := by omega
    rcases Address.ofInt64_of_lt small with ⟨address, positive⟩
    refine ⟨text, Memory.tokenAt_eq_ok_iff.mpr (Or.inl ⟨inside, address, positive, ?_⟩)⟩
    rw [Address.index_of_ofInt64 positive, Memory.getElem?_of_load loads (by omega), found]

/-- What the memory has at a location can be fetched. -/
theorem succeeds_instructionAt {machine : Machine} {location : UInt64} {token : String}
    (hosts : machine.Hosts source) (found : machine.memory.tokenAt location = .ok token) :
    (instructionAt location).FailsOnly machine fun _ => False := by
  have start := RegisterFile.read_full hosts.cs
  have stop := RegisterFile.read_full hosts.ds
  simp only [instructionAt, failsOnly_bind, Machine.yields_readRegister]
  refine ⟨Yields.failsOnly (Machine.yields_readRegister.mpr ⟨start, rfl⟩), ?_⟩
  rintro textStart _ ⟨first, rfl⟩
  cases start.symm.trans first
  refine ⟨Yields.failsOnly (Machine.yields_readRegister.mpr ⟨stop, rfl⟩), ?_⟩
  rintro dataStart _ ⟨second, rfl⟩
  cases stop.symm.trans second
  rw [Memory.tokenAt_eq_ok_iff, Memory.inText, hosts.memory.textSection] at found
  rcases found with ⟨inside, address, positive, present⟩ | ⟨outside, -⟩
  · have cell : machine.memory.get address = .ok (.token token) := by
      rw [Memory.get, present]
    rw [if_pos inside, failsOnly_bind]
    refine ⟨Yields.failsOnly (yields_ofExcept.mpr ⟨positive, rfl⟩), ?_⟩
    intro other middle same
    rcases yields_ofExcept.mp same with ⟨again, rfl⟩
    cases positive.symm.trans again
    exact Yields.failsOnly (Machine.yields_readToken.mpr
      ⟨.token token, Machine.yields_readCell.mpr ⟨cell, rfl⟩, rfl⟩)
  · rw [if_neg (Bool.eq_false_iff.mp outside)]
    exact failsOnly_pure

/-- Fetch does not fail, wherever the predictor sends it, if the queue has room
for the prediction. -/
theorem succeeds_fetch (placed : before.machine.registers.content .rip = .number position)
    (hosts : before.machine.Hosts source) (readable : before.machine.memory.Readable)
    (trained : before.predictor.Trained kind source.Branching room)
    (fits : before.predictor.outstanding.length < room) :
    fetch.FailsOnly before fun _ => False := by
  simp only [fetch, failsOnly_bind]
  refine ⟨Yields.failsOnly (yields_onMachine.mpr ⟨_, Machine.yields_readRegister.mpr
    ⟨RegisterFile.read_full placed, rfl⟩, rfl⟩), ?_⟩
  intro current first reads
  rcases yields_onMachine.mp reads with ⟨machine, counts, rfl⟩
  rcases Machine.yields_readRegister.mp counts with ⟨-, rfl⟩
  refine ⟨failsOnly_get, ?_⟩
  intro state second same
  rcases yields_get.mp same with ⟨rfl, rfl⟩
  rcases trained.exists_predict (fun _ : source.Branching current => fits) with
      ⟨location, predictor, predicts⟩
  refine ⟨Yields.failsOnly (yields_onPredictor.mpr ⟨predictor, predicts, rfl⟩), ?_⟩
  intro place third asked
  rcases yields_onPredictor.mp asked with ⟨changed, -, rfl⟩
  rcases readable place with ⟨token, found⟩
  simp only [onMachine, failsOnly_onPart, failsOnly_bind, failsOnly_modify, failsOnly_pure,
    yields_modify, implies_true, and_true, true_and]
  rintro _ _ rfl
  refine succeeds_instructionAt (hosts.of_agrees ?_) found
  exact (Machine.agrees_put _ rfl _ _).trans (Machine.agrees_put _ rfl _ _)

end Processor
end BranchPipeline
