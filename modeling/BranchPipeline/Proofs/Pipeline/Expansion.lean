import BranchPipeline.Proofs.Pipeline.LockStep

namespace BranchPipeline
namespace Processor

open Attempt

/-!
# Decode expands what fetch handed over

The mark of speculation travels inside the text: fetch puts a star behind it,
and decode takes the last star for that mark.  This is the mark that fetch gave,
except for a text that ends with a star itself and is fetched on the straight
path.  Such a text is no instruction, but decode sees the text without the star,
which may be one.  For every other text decode does to it what `expand` does.
-/

variable {capacity : Nat} {latest : Option Fetched} {before after : Processor}

/-- Decode takes the end of this text for a mark that fetch has not given. -/
def Misleads (fetched : Fetched) : Prop :=
  fetched.speculative = false ∧ Starred fetched.token

instance (fetched : Fetched) : Decidable (Misleads fetched) :=
  inferInstanceAs (Decidable (fetched.speculative = false ∧ Starred fetched.token))

/-- What decode makes of the text that was handed over. -/
theorem splitMark_handedOver (fetched : Fetched) :
    (¬ Misleads fetched → splitMark (handedOver fetched.token fetched.speculative) =
      (fetched.token, fetched.speculative)) ∧
    (Misleads fetched → splitMark (handedOver fetched.token fetched.speculative) =
      (instruction fetched.token, true)) := by
  rcases fetched with ⟨location, token, speculative⟩
  cases speculative with
  | true =>
    refine ⟨fun _ => splitMark_push token, ?_⟩
    rintro ⟨marked, -⟩
    cases marked
  | false =>
    constructor
    · intro plain
      exact splitMark_of_not_starred fun starred => plain ⟨rfl, starred⟩
    · rintro ⟨-, starred⟩
      exact splitMark_of_starred starred

/-- Decode goes by what was fetched last. -/
theorem Sound.decodes (sound : before.Sound capacity latest)
    (awake : before.stalled.decode = false) :
    ∃ fetched, latest = some fetched ∧
      (∀ decoded after, decode.Yields before (some decoded) after →
        decoded.instruction = (splitMark (handedOver fetched.token fetched.speculative)).1 ∧
        Instruction.expand decoded.instruction
          (splitMark (handedOver fetched.token fetched.speculative)).2 = .ok decoded.group) ∧
      ∀ fault, Instruction.expand (splitMark (handedOver fetched.token fetched.speculative)).1
          (splitMark (handedOver fetched.token fetched.speculative)).2 = .error fault →
        decode.perform before = (.error (.decode fault), before) := by
  rcases sound.handed awake with ⟨fetched, last, cir⟩
  have handed : (before.machine.registers.text? .cir).getD "" =
      handedOver fetched.token fetched.speculative := by
    rw [RegisterFile.text?, cir, Option.getD_some]
  refine ⟨fetched, last, ?_, ?_⟩
  · intro decoded reached ran
    simp only [decode, yields_bind, yields_get, and_assoc, exists_and_left, exists_eq_left, handed,
      yields_ofExcept] at ran
    rcases ran with ⟨group, expanded, ran⟩
    split at ran
    · simp only [yields_bind, yields_set, yields_pure] at ran
      rcases ran with ⟨_, _, -, lost, -⟩
      cases lost
    · simp only [yields_bind, yields_modify, yields_pure] at ran
      rcases ran with ⟨location, _, -, _, _, -, _, _, -, same, -⟩
      cases same
      exact ⟨rfl, expanded⟩
  · intro fault fails
    simp only [decode, perform_bind, perform_get, handed, perform_ofExcept, fails, mapError_error]

/-- What a cycle decodes has passed through the decode stage after the execute
stage was done. -/
theorem decodes_of_runCycle {trace : CycleTrace} {flow : Flow} {decoded : Decoded}
    (ran : before.runCycle = (.ok (trace, flow), after)) (decodes : trace.decoded = some decoded) :
    ∃ execution middle reached,
      (unlessStalled StageSet.execute {} execute).Yields before execution middle ∧
      middle.stalled.decode = false ∧ decode.Yields middle (some decoded) reached := by
  cases running : before.running with
  | true =>
    have turned := turn_of_runCycle running ran
    simp only [turn, yields_bind, yields_modify, yields_pure] at turned
    rcases turned with ⟨execution, middle, executes, result, reached, decoding, _, _, -, _, _, -,
      same, -⟩
    cases same
    replace decodes : result = some decoded := decodes
    subst decodes
    rcases yields_unlessStalled.mp decoding with ⟨-, lost, -⟩ | ⟨awake, decoding⟩
    · cases lost
    · exact ⟨execution, middle, reached, executes, awake, decoding⟩
  | false =>
    rw [runCycle_of_stopped running] at ran
    cases ran
    cases decodes

/-- A cycle in which decode fails, fails in the same way. -/
theorem runCycle_of_decode {execution : Execution} {middle : Processor} {fault : Fault}
    (running : before.running = true)
    (early : ∀ limit, before.cycleLimit = some limit → before.cycle < limit)
    (executes : (unlessStalled StageSet.execute {} execute).Yields before execution middle)
    (awake : middle.stalled.decode = false)
    (fails : decode.perform middle = (.error fault, after)) :
    before.runCycle = (.error fault, after) := by
  have stage : (unlessStalled StageSet.decode none decode).perform middle =
      (.error fault, after) := by
    simp only [unlessStalled, perform_bind, perform_get, awake]
    exact fails
  rcases runCycle_of_running running with turns | ⟨limit, -, limited, late⟩
  · rw [turns, turn, perform_bind, executes]
    simp only [perform_bind, stage]
  · exact absurd late (Nat.not_le.mpr (early limit limited))

section

variable {configuration : Configuration} {kind : PredictorKind} {executable : Executable}
  {output : Output} {start reached : Processor}

/-- Decode expands what was fetched.  Whatever calls came before, failed ones
included, a group that a cycle decodes is the expansion of the token that was
fetched last, under the mark that it was fetched with; with another mark the
token has the same expansion, up to that mark.  If the token has no expansion,
the cycle fails for the same reason.  The exception is a token that ends with a
star and was fetched without the mark: though it is no instruction, the part
before the star is expanded, and marked as speculative. -/
theorem expands_fetched {count : Nat} {outcomes : List (Except Fault (CycleTrace × Flow))}
    (loads : load configuration kind executable output = .ok start)
    (called : start.callCycles count = (outcomes, reached)) :
    (∀ trace flow after decoded, reached.runCycle = (.ok (trace, flow), after) →
      trace.decoded = some decoded →
      ∃ fetched, latestFetch outcomes = some fetched ∧
        (¬ Misleads fetched →
          Instruction.expand fetched.token fetched.speculative = .ok decoded.group ∧
          (∀ mark, Instruction.expand fetched.token mark =
            .ok (decoded.group.map (·.marked mark))) ∧
          decoded.instruction = fetched.token) ∧
        (Misleads fetched →
          (∀ mark group, Instruction.expand fetched.token mark ≠ .ok group) ∧
          Instruction.expand (instruction fetched.token) true = .ok decoded.group ∧
          decoded.instruction = instruction fetched.token)) ∧
    (∀ execution middle, reached.running = true →
      (∀ limit, reached.cycleLimit = some limit → reached.cycle < limit) →
      (unlessStalled StageSet.execute {} execute).Yields reached execution middle →
      middle.stalled.decode = false →
      ∃ fetched, latestFetch outcomes = some fetched ∧
        ∀ fault, ¬ Misleads fetched →
          Instruction.expand fetched.token fetched.speculative = .error fault →
          reached.runCycle = (.error (.decode fault), middle)) := by
  have sound := ((loaded_of_load loads).sound_of_callCycles called).1
  have executed {execution : Execution} {middle : Processor}
      (executes : (unlessStalled StageSet.execute {} execute).Yields reached execution middle) :
      middle.Sound configuration.inFlightCapacity (latestFetch outcomes) :=
    (endures_executeStage reached sound).1 execution middle executes
  constructor
  · intro trace flow after decoded ran decodes
    rcases decodes_of_runCycle ran decodes with ⟨execution, middle, _, executes, awake, decoding⟩
    rcases (executed executes).decodes awake with ⟨fetched, last, expands, -⟩
    rcases expands decoded _ decoding with ⟨text, expanded⟩
    rcases splitMark_handedOver fetched with ⟨plain, misled⟩
    refine ⟨fetched, last, ?_, ?_⟩
    · intro leads
      rw [plain leads] at text expanded
      rw [text] at expanded
      exact ⟨expanded, Instruction.expand_marked expanded, text⟩
    · intro misleads
      rw [misled misleads] at text expanded
      rw [text] at expanded
      exact ⟨fun mark group => misleads.2.not_expand mark group, expanded, text⟩
  · intro execution middle running early executes awake
    rcases (executed executes).decodes awake with ⟨fetched, last, -, fails⟩
    refine ⟨fetched, last, fun fault leads faulty => ?_⟩
    have split := (splitMark_handedOver fetched).1 leads
    rw [split] at fails
    exact runCycle_of_decode running early executes awake (fails fault faulty)

end

/-- In the loop, `dec rbx` is fetched speculatively and then decoded into the
group that it has on any other path.  The word `halt` has no expansion, so the
cycle after its fetch fails. -/
theorem expands_fetched_loop_and_halt :
    (∃ start outcomes reached trace flow after decoded fetched,
      load cramped .gshare threeRounds .accepting = .ok start ∧
      start.callCycles 18 = (outcomes, reached) ∧
      reached.runCycle = (.ok (trace, flow), after) ∧ trace.decoded = some decoded ∧
      latestFetch outcomes = some fetched ∧ fetched.token = "dec rbx" ∧
      fetched.speculative = true ∧
      Instruction.expand "dec rbx" false = .ok (decoded.group.map (·.marked false))) ∧
    ∃ start outcomes reached middle,
      load cramped .gshare halting .accepting = .ok start ∧
      start.callCycles 6 = (outcomes, reached) ∧
      reached.runCycle = (.error (.decode (.invalidOpcode "halt")), middle) := by
  constructor
  · have computed : (callLoaded cramped .gshare threeRounds .accepting 18).toOption.any
        (fun ends => decide (latestFetch ends.1 = some ⟨3, "dec rbx", true⟩) &&
          ends.2.runCycle.1.toOption.any fun result => result.1.decoded.isSome) = true := by
      decide +kernel
    rcases exists_of_callLoaded computed with ⟨start, outcomes, reached, loads, called, ends⟩
    rw [Bool.and_eq_true, decide_eq_true_eq] at ends
    rcases ends with ⟨last, decodes⟩
    rcases ran : reached.runCycle with ⟨_ | ⟨trace, flow⟩, after⟩
    · rw [ran] at decodes
      cases decodes
    · rw [ran] at decodes
      rcases Option.isSome_iff_exists.mp decodes with ⟨decoded, found⟩
      rcases (expands_fetched loads called).1 trace flow after decoded ran found with
          ⟨fetched, same, plain, -⟩
      cases last.symm.trans same
      rcases plain (by decide) with ⟨-, expands, -⟩
      exact ⟨start, outcomes, reached, trace, flow, after, decoded, _, loads, called, ran, found,
        last, rfl, rfl, expands false⟩
  · have computed : (callLoaded cramped .gshare halting .accepting 6).toOption.any
        (fun ends => decide (latestFetch ends.1 = some ⟨5, "halt", false⟩ ∧
          ends.2.running = true ∧ ends.2.cycleLimit = none) &&
          ((unlessStalled StageSet.execute {} execute).perform ends.2).1.isOk &&
          !((unlessStalled StageSet.execute {} execute).perform ends.2).2.stalled.decode) =
          true := by
      decide +kernel
    rcases exists_of_callLoaded computed with ⟨start, outcomes, reached, loads, called, ends⟩
    rw [Bool.and_eq_true, Bool.and_eq_true, decide_eq_true_eq, Bool.not_eq_true'] at ends
    rcases ends with ⟨⟨⟨last, running, unlimited⟩, succeeds⟩, awake⟩
    rcases executes : (unlessStalled StageSet.execute {} execute).perform reached with
        ⟨_ | execution, middle⟩
    · rw [executes] at succeeds
      cases succeeds
    · rw [executes] at awake
      rcases (expands_fetched loads called).2 execution middle running
        (fun limit limited => nomatch unlimited.symm.trans limited) executes awake with
          ⟨fetched, same, fails⟩
      cases last.symm.trans same
      have words : Text.words Instruction.isSeparator "halt" = ["halt"] := by decide +kernel
      have faulty : Instruction.expand "halt" false = .error (.invalidOpcode "halt") :=
        Instruction.expand_of_unnamed words (by decide +kernel) (by decide +kernel) false
      exact ⟨start, outcomes, reached, middle, loads, called, fails _ (by decide) faulty⟩

/-- An instruction with a star that nobody has put there as a mark. -/
def starredIdle : Executable := .ofParts ["noop*", "mov rax 60", "syscall"] []

/-- The token `noop*` has no expansion, and is decoded nevertheless. -/
theorem starred_token_decoded :
    ∃ start outcomes reached trace flow after decoded fetched,
      load cramped .gshare starredIdle .accepting = .ok start ∧
      start.callCycles 1 = (outcomes, reached) ∧ latestFetch outcomes = some fetched ∧
      reached.runCycle = (.ok (trace, flow), after) ∧ trace.decoded = some decoded ∧
      Instruction.expand fetched.token fetched.speculative = .error (.invalidOpcode "noop*") := by
  have computed : (callLoaded cramped .gshare starredIdle .accepting 1).toOption.any
      (fun ends => decide (latestFetch ends.1 = some ⟨2, "noop*", false⟩) &&
        ends.2.runCycle.1.toOption.any fun result => result.1.decoded.isSome) = true := by
    decide +kernel
  rcases exists_of_callLoaded computed with ⟨start, outcomes, reached, loads, called, ends⟩
  rw [Bool.and_eq_true, decide_eq_true_eq] at ends
  rcases ends with ⟨last, decodes⟩
  rcases ran : reached.runCycle with ⟨_ | ⟨trace, flow⟩, after⟩
  · rw [ran] at decodes
    cases decodes
  · rw [ran] at decodes
    rcases Option.isSome_iff_exists.mp decodes with ⟨decoded, found⟩
    have words : Text.words Instruction.isSeparator "noop*" = ["noop*"] := by decide +kernel
    have faulty : Instruction.expand "noop*" false = .error (.invalidOpcode "noop*") :=
      Instruction.expand_of_unnamed words (by decide +kernel) (by decide +kernel) false
    exact ⟨start, outcomes, reached, trace, flow, after, decoded, _, loads, called, last, ran,
      found, faulty⟩

end Processor
end BranchPipeline
