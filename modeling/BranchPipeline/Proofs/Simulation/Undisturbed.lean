import BranchPipeline.Debugger.Session
import BranchPipeline.Proofs.Simulation.Following

namespace BranchPipeline

/-!
# A debugger does not disturb the machine

A debugger runs the processor in pieces.  It stops where its options say, reads
what is watched, shows what it is asked for and runs on.  Reading goes through
the counted path, so the counts of accesses tell of it, but nothing else does:
the processor is where the same number of cycles would have led it without a
debugger, and a fault is the one that it would have met.
-/

namespace Session

open Simulator

/-! ## Commands -/

variable {session next : Session} {budget : Nat}

/-- The options with which a command runs the program, if it does. -/
def runOptions? (options : Options) : Command → Option Options
  | .again => some options
  | .mode chosen => some { options with mode := chosen }
  | _ => none

/-- How the run for which a command calls comes to its end. -/
def ending? (budget : Nat) (session : Session) (command : Command) : Option RunEnd :=
  (runOptions? session.options command).bind fun options =>
    (session.simulator.run options (fun _ _ seen => seen) budget ()).map (·.1)

/-- Whatever a run has to report goes to the console. -/
theorem exists_console_of_report (session : Session) (reason : StopReason)
    (watched : WatchedValues) :
    ∃ console, (session.printReason reason).printWatched watched = { session with console } := by
  have told : ∃ console, session.printReason reason = { session with console } := by
    cases reason with
    | breakpoint id =>
      rw [printReason]
      split <;> exact ⟨_, rfl⟩
    | cannotRestart | failed | reached _ | stepsDone => exact ⟨_, rfl⟩
  rcases told with ⟨console, told⟩
  rw [told]
  unfold printWatched
  dsimp only
  split <;> split <;> exact ⟨_, rfl⟩

/-- Showing something only looks at the simulator. -/
theorem lookedAt_show {simulator : Simulator} (same : session.simulator = simulator)
    (shown : Shown) : simulator.LookedAt (session.show? shown).simulator := by
  subst same
  cases shown with
  | register ref => exact (sameButAccesses_readRegister session.simulator ref).lookedAt
  | _ => exact .refl _

/-- A run changes the simulator and the console of a session, and nothing else. -/
theorem run_of_runProgram {progress : Progress}
    (ran : session.runProgram budget = some (next, progress)) :
    (∃ ending console, session.simulator.run session.options Console.observe budget
      session.console = some (ending, next.simulator, console)) ∧
    ∃ simulator console, next = { session with simulator, console } := by
  rcases Option.bind_eq_some_iff.mp ran with ⟨⟨ending, simulator, console⟩, runs, reports⟩
  cases ending with
  | exited =>
    cases reports
    exact ⟨⟨.exited, console, runs⟩, simulator, _, rfl⟩
  | stopped reason watched =>
    cases reports
    rcases exists_console_of_report { session with
      simulator
      console := console.catchUp simulator.processor } reason watched with ⟨shown, reported⟩
    rw [reported]
    exact ⟨⟨.stopped reason watched, console, runs⟩, simulator, shown, rfl⟩

/-- The ending of a run does not depend on the console. -/
theorem exists_ending {options : Options} {command : Command} {ending : RunEnd}
    {after : Simulator} {console shown : Console}
    (asks : runOptions? session.options command = some options)
    (ran : session.simulator.run options Console.observe budget console =
      some (ending, after, shown)) :
    session.ending? budget command = some ending ∧ session.simulator.Runs ending after := by
  refine ⟨?_, runs_of_run ran⟩
  rcases run_of_observer ran (fun _ _ seen => seen) () with ⟨result, alone⟩
  rw [ending?, asks, Option.bind_some, alone]
  rfl

/-- A command calls for a run or only looks at the simulator. -/
theorem runs_of_carryOut {command : Command} {progress : Progress}
    (carried : session.carryOut budget command = some (next, progress)) :
    (∃ ending, session.ending? budget command = some ending ∧
      session.simulator.Runs ending next.simulator) ∨
    (session.ending? budget command = none ∧ session.simulator.LookedAt next.simulator) := by
  cases command with
  | exit =>
    cases carried
    exact Or.inr ⟨rfl, .refl _⟩
  | again | mode chosen =>
    rcases run_of_runProgram carried with ⟨⟨ending, console, ran⟩, -⟩
    exact Or.inl ⟨ending, exists_ending rfl ran⟩
  | removeBreakpoint id =>
    cases carried
    refine Or.inr ⟨rfl, lookedAt_show ?_ _⟩
    show Session.simulator (if _ then session else _) = session.simulator
    split <;> rfl
  | trace _ | addBreakpoint _ | watch _ | unwatch _ | display _ =>
    cases carried
    exact Or.inr ⟨rfl, lookedAt_show (by rfl) _⟩

/-! ## Whatever a user does -/

/-- What a user can do next: call for a run with any options, or give the
session a command. -/
inductive Act where
  | call (options : Options) (budget : Nat)
  | command (command : Command) (budget : Nat)

variable {β : Type} {observe : Observer β} {seen shown : β}

/-- Carries out one act.  It says how the run ended, if there was one. -/
def perform (observe : Observer β) (session : Session) (seen : β) :
    Act → Option (Option RunEnd × Session × β)
  | .call options budget => do
    let (ending, simulator, seen) ← session.simulator.run options observe budget seen
    return (some ending, { session with simulator }, seen)
  | .command command budget => do
    let (next, _) ← session.carryOut budget command
    return (session.ending? budget command, next, seen)

/-- Carries out one act after the other, as far as they come to an end, and
lists how the runs ended. -/
def performAll (observe : Observer β) (session : Session) (seen : β) :
    List Act → Option (List RunEnd × Session × β)
  | [] => some ([], session, seen)
  | act :: later => do
    let (ending, session, seen) ← session.perform observe seen act
    let (endings, session, seen) ← session.performAll observe seen later
    return (ending.toList ++ endings, session, seen)

/-- An act is a run or a look. -/
theorem runs_of_perform {act : Act} {ending : Option RunEnd}
    (performed : session.perform observe seen act = some (ending, next, shown)) :
    (∃ ended, ending = some ended ∧ session.simulator.Runs ended next.simulator) ∨
    (ending = none ∧ session.simulator.LookedAt next.simulator) := by
  cases act with
  | call options budget =>
    rcases Option.bind_eq_some_iff.mp performed with ⟨⟨ended, simulator, noted⟩, ran, returns⟩
    cases returns
    exact Or.inl ⟨ended, rfl, runs_of_run ran⟩
  | command command budget =>
    rcases Option.bind_eq_some_iff.mp performed with ⟨⟨told, progress⟩, carried, returns⟩
    cases returns
    exact runs_of_carryOut carried

variable {acts later : List Act} {endings : List RunEnd} {reached : Session}

theorem performAll_cons {act : Act}
    (performed : session.performAll observe seen (act :: later) =
      some (endings, reached, shown)) :
    ∃ ending middle noted others, session.perform observe seen act =
        some (ending, middle, noted) ∧
      middle.performAll observe noted later = some (others, reached, shown) ∧
      endings = ending.toList ++ others := by
  rcases Option.bind_eq_some_iff.mp performed with ⟨⟨ending, middle, noted⟩, first, continues⟩
  rcases Option.bind_eq_some_iff.mp continues with ⟨⟨others, last, final⟩, rest, returns⟩
  cases returns
  exact ⟨ending, middle, noted, others, first, rest, rfl⟩

/-- What runs and looks keep, a whole session keeps. -/
theorem kept_of_performAll {kept : Simulator → Prop}
    (runs : ∀ ⦃before after ending⦄, Runs before ending after → kept before → kept after)
    (looks : ∀ ⦃before after⦄, LookedAt before after → kept before → kept after)
    (performed : session.performAll observe seen acts = some (endings, reached, shown))
    (holds : kept session.simulator) : kept reached.simulator := by
  induction acts generalizing session seen endings with
  | nil =>
    cases performed
    exact holds
  | cons act later inductionHypothesis =>
    rcases performAll_cons performed with ⟨ending, middle, noted, others, first, rest, rfl⟩
    refine inductionHypothesis rest ?_
    rcases runs_of_perform first with ⟨ended, -, run⟩ | ⟨-, looked⟩
    · exact runs run holds
    · exact looks looked holds

variable {configuration : Configuration} {kind : PredictorKind} {executable : Executable}
  {output : Output} {start : Processor}

theorem halted_of_performAll
    (performed : session.performAll observe seen acts = some (endings, reached, shown))
    (halted : session.simulator.Halted) : reached.simulator.Halted :=
  kept_of_performAll (fun _ _ _ runs halted => halted.runs runs)
    (fun _ _ looked halted => halted.of_lookedAt looked) performed halted

theorem failed_of_performAll
    (performed : session.performAll observe seen acts = some (endings, reached, shown))
    (failed : session.simulator.Failed) : reached.simulator.Failed :=
  kept_of_performAll (fun _ _ _ runs failed => failed.runs runs)
    (fun _ _ looked failed => failed.of_lookedAt looked) performed failed

theorem follows_of_performAll
    (loaded : Processor.Loaded configuration kind executable output start)
    (follows : Follows start session.simulator)
    (performed : session.performAll observe seen acts = some (endings, reached, shown)) :
    Follows start reached.simulator ∧ (.exited ∈ endings → reached.simulator.Halted) ∧
      ∀ watched, .stopped .failed watched ∈ endings → reached.simulator.Failed := by
  induction acts generalizing session seen endings with
  | nil =>
    cases performed
    exact ⟨follows, nofun, nofun⟩
  | cons act later inductionHypothesis =>
    rcases performAll_cons performed with ⟨ending, middle, noted, others, first, rest, rfl⟩
    rcases runs_of_perform first with ⟨ended, rfl, runs⟩ | ⟨rfl, looked⟩
    · have known := runs.ended loaded follows
      rcases inductionHypothesis known.follows rest with ⟨leads, exits, fails⟩
      refine ⟨leads, ?_, ?_⟩
      · intro member
        rcases List.mem_cons.mp member with same | member
        · exact halted_of_performAll rest (known.exited same.symm)
        · exact exits member
      · intro watched member
        rcases List.mem_cons.mp member with same | member
        · exact failed_of_performAll rest (known.failed watched same.symm)
        · exact fails watched member
    · exact inductionHypothesis (follows.of_lookedAt looked) rest

/-- The debugger does not disturb the machine.  Whatever calls and commands a
user strings together, the processor is where as many cycles lead without a
debugger, up to its counts of accesses, and after a failed cycle it is where
this cycle leads.  If one of the runs exited, a run from the start exits too,
with the same record after the same number of cycles; if one failed, a run from
the start fails with the same fault. -/
theorem debugging_undisturbed
    (loads : Simulator.load configuration kind executable output = .ok session.simulator)
    (performed : session.performAll observe seen acts = some (endings, reached, shown)) :
    (∃ traces unwatched, session.simulator.processor.runCycles reached.simulator.cycle =
        .ok (traces, unwatched) ∧
      (reached.simulator.failure = none →
        unwatched.SameButAccesses reached.simulator.processor) ∧
      ∀ fault, reached.simulator.failure = some fault → ∃ broken,
        unwatched.runCycle = (.error fault, broken) ∧
        broken.SameButAccesses reached.simulator.processor) ∧
    (.exited ∈ endings → ∀ {γ : Type} (other : Observer γ) (instead : γ) (budget : Nat),
      reached.simulator.cycle ≤ budget → ∃ last result,
        session.simulator.runToExit other budget instead =
          some (.ok reached.simulator.processor.record, last, result) ∧
        last.cycle = reached.simulator.cycle) ∧
    (∀ watched, .stopped .failed watched ∈ endings → ∃ fault,
      reached.simulator.failure = some fault ∧
      ∀ {γ : Type} (other : Observer γ) (instead : γ) (budget : Nat),
        reached.simulator.cycle < budget → ∃ last result,
          session.simulator.runToExit other budget instead =
            some (.error fault.message, last, result) ∧ last.failure = some fault) := by
  rcases bind_eq_ok_iff.mp loads with ⟨start, begins, made⟩
  have fresh : session.simulator = { processor := start } := (Except.ok.inj made).symm
  have loaded := Processor.loaded_of_load begins
  have opened : Follows start session.simulator := by
    rw [fresh]
    have begun : start.runCycles start.cycle = .ok ([], start) := by
      rw [loaded.cycle]
      rfl
    exact .sound rfl begun (.refl start)
  rcases follows_of_performAll loaded opened performed with ⟨follows, exits, fails⟩
  have sound : session.simulator.failure = none := by rw [fresh]
  have first : session.simulator.processor = start := by rw [fresh]
  rw [first]
  refine ⟨?_, ?_, ?_⟩
  · cases follows with
    | @sound traces unwatched failure ran same =>
      refine ⟨traces, unwatched, ran, fun _ => same, ?_⟩
      intro fault failed
      rw [failure] at failed
      cases failed
    | @broken fault traces before unwatched failure ran fails same =>
      refine ⟨traces, before, ran, ?_, ?_⟩
      · intro none
        rw [failure] at none
        cases none
      · intro other failed
        rw [failure] at failed
        cases failed
        exact ⟨unwatched, fails, same⟩
  · intro member γ other instead budget enough
    have halted := exits member
    cases follows with
    | broken failure _ _ _ =>
      rw [halted.failure] at failure
      cases failure
    | @sound traces unwatched failure ran same =>
      have stopped := same.running_eq.symm.trans halted.stopped
      have record : reached.simulator.processor.record = unwatched.record := by
        rcases same with ⟨accesses, same⟩
        rw [same]
        rfl
      rw [record]
      exact runToExit_of_stopped loaded first sound ran stopped same.cycle_eq.symm enough instead
  · intro watched member
    cases follows with
    | sound failure _ _ => exact absurd failure (fails watched member)
    | @broken fault _ _ _ failure ran failing _ =>
      refine ⟨fault, failure, ?_⟩
      intro γ other instead budget enough
      exact runToExit_of_fault loaded first sound ran failing enough instead

/-- Loads an executable and carries out the acts, with nobody to observe them. -/
def performLoaded (configuration : Configuration) (kind : PredictorKind)
    (executable : Executable) (output : Output) (acts : List Act) :
    Option (List RunEnd × Session) := do
  let simulator ← (Simulator.load configuration kind executable output).toOption
  let (endings, reached, _) ←
    ({ simulator } : Session).performAll (fun _ _ seen => seen) () acts
  return (endings, reached)

theorem exists_of_performLoaded {property : List RunEnd × Session → Bool}
    (holds : (performLoaded configuration kind executable output acts).any property = true) :
    ∃ (session : Session) (endings : List RunEnd) (reached : Session),
      Simulator.load configuration kind executable output = .ok session.simulator ∧
      session.performAll (fun _ _ seen => seen) () acts = some (endings, reached, ()) ∧
      property (endings, reached) = true := by
  cases performed : performLoaded configuration kind executable output acts with
  | none =>
    rw [performed] at holds
    cases holds
  | some ends =>
    rw [performed] at holds
    rcases Option.bind_eq_some_iff.mp performed with ⟨simulator, loads, performed⟩
    rcases Option.bind_eq_some_iff.mp performed with ⟨⟨endings, reached, _⟩, carried, returns⟩
    cases returns
    refine ⟨{ simulator }, endings, reached, ?_, carried, holds⟩
    cases made : Simulator.load configuration kind executable output with
    | ok other =>
      rw [made] at loads
      cases loads
      rfl
    | error fault =>
      rw [made] at loads
      cases loads

/-- A loop of three rounds, run in pieces: some steps, up to a breakpoint, up to
a cycle, and on to the exit, with looks at registers and memory in between. -/
def inPieces : List Act :=
  [.command (.watch (.register (.full .rax))) 0, .command (.addBreakpoint (.opcode .jump)) 0,
    .call { tracing := true, mode := .steps (some 5), watchings := { addresses := [⟨2⟩] } } 9,
    .command (.display (.register (.full .rip))) 0, .command .again 40,
    .command (.mode (.until 15)) 40, .command (.removeBreakpoint 0) 0, .call {} 40]

theorem debugging_undisturbed_in_pieces :
    ∃ (session reached : Session) (endings : List RunEnd),
      Simulator.load Processor.cramped .gshare Processor.threeRounds .accepting =
        .ok session.simulator ∧
      session.performAll (fun _ _ seen => seen) () inPieces = some (endings, reached, ()) ∧
      (∃ traces unwatched, session.simulator.processor.runCycles 32 = .ok (traces, unwatched) ∧
        unwatched.SameButAccesses reached.simulator.processor) ∧
      ∃ last result, session.simulator.runToExit (fun _ _ seen => seen) 32 () =
        some (.ok { predicted := #[19], mispredicted := #[10, 26] }, last, result) ∧
        last.cycle = 32 := by
  have computed : (performLoaded Processor.cramped .gshare Processor.threeRounds .accepting
      inPieces).any (fun ends => decide (ends.2.simulator.cycle = 32 ∧
        ends.2.simulator.failure = none ∧
        ends.2.simulator.processor.record = { predicted := #[19], mispredicted := #[10, 26] } ∧
        ends.1.any (·.success? == some true))) = true := by
    decide +kernel
  rcases exists_of_performLoaded computed with ⟨session, endings, reached, loads, performed, ends⟩
  rcases of_decide_eq_true ends with ⟨cycle, sound, record, exits⟩
  have exited : .exited ∈ endings := by
    rcases List.any_eq_true.mp exits with ⟨ending, member, exits⟩
    cases ending with
    | exited => exact member
    | stopped reason watched => cases reason <;> cases exits
  rcases debugging_undisturbed loads performed with ⟨⟨traces, unwatched, ran, same, -⟩, ends, -⟩
  have leaves := ends exited (fun _ _ seen => seen) () 32 (Nat.le_of_eq cycle)
  rw [cycle] at ran leaves
  rw [record] at leaves
  exact ⟨session, reached, endings, loads, performed, ⟨traces, unwatched, ran, same sound⟩, leaves⟩

end Session
end BranchPipeline
