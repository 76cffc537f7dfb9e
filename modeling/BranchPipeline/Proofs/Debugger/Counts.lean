import BranchPipeline.Proofs.Debugger.Bookkeeping
import BranchPipeline.Proofs.Debugger.Deeds
import BranchPipeline.Proofs.Pipeline.Program
import BranchPipeline.Proofs.Simulation.Looks

namespace BranchPipeline

/-!
# The counts of a session

The counts of accesses at the end of a session are those of the program and,
besides, of every look through the counted path.  These are the command that
shows a single register, and all that is watched whenever a run stops;
everything else that can be shown is not counted.
-/

/-- What a command shows through the counted path. -/
def Command.looks : Command → List Watched
  | .display (.register ref) => [.register ref]
  | _ => []

namespace Session

open Simulator AccessTally

variable {session next reached : Session} {budget : Nat} {progress : Progress}
  {command : Command}

/-! ## Where a session looks -/

/-- The places at which a command looks, be it that it shows them or that it
calls for a run that stops. -/
def looksOf (budget : Nat) (session : Session) (command : Command) : List Watched :=
  command.looks ++
    (session.ending? budget command).elim [] fun ending => ending.looks session.options.watchings

/-- The places at which a session looks while it answers a line. -/
def looksIn (budget : Nat) (session : Session) (line : String) : List Watched :=
  match Command.read line with
  | .ok command => session.looksOf budget command
  | .error _ => []

/-- The places at which a session looks before it is over. -/
def looks (budget : Nat) (session : Session) : List String → List Watched
  | [] => []
  | line :: rest =>
    session.prompt.looksIn budget line ++
      match session.prompt.answer budget line with
      | some (next, .ongoing) => next.looks budget rest
      | some (_, .over) | none => []

theorem watchings_of_runOptions? {options asked : Options}
    (asks : runOptions? options command = some asked) : asked.watchings = options.watchings := by
  cases command <;> cases asks <;> rfl

section

variable {size : Nat} {range : Section} {earlier : List Watched} {start : Processor}
  {configuration : Configuration} {kind : PredictorKind} {executable : Executable}
  {output : Output}

theorem looks_show (shaped : session.simulator.Shaped size range) (budget : Nat) (shown : Shown) :
    Looks size range (session.looksOf budget (.display shown)) session.simulator
      (session.show? shown).simulator := by
  cases shown with
  | register ref => exact looks_readRegister shaped ref
  | _ => exact .nil shaped

theorem accounted_of_runOptions? {options : Options}
    (loaded : Processor.Loaded configuration kind executable output start)
    (accounted : Accounted size range earlier start session.simulator)
    (asks : runOptions? session.options command = some options)
    (carried : session.carryOut budget command = some (next, progress)) :
    Accounted size range (earlier ++ session.looksOf budget command) start next.simulator := by
  have shows : command.looks = [] := by cases command <;> first | rfl | cases asks
  rcases exists_runProgram asks carried with ⟨asked, same, rfl, -, runs⟩
  rcases run_of_runProgram runs with ⟨⟨ending, console, ran⟩, -⟩
  rw [same] at ran
  have accounts := accounted_of_run loaded accounted ran
  rw [watchings_of_runOptions? asks] at accounts
  rw [looksOf, shows, (exists_ending asks ran).1]
  exact accounts

theorem accounted_carryOut
    (loaded : Processor.Loaded configuration kind executable output start)
    (accounted : Accounted size range earlier start session.simulator)
    (carried : session.carryOut budget command = some (next, progress)) :
    Accounted size range (earlier ++ session.looksOf budget command) start next.simulator := by
  cases command with
  | again | mode chosen => exact accounted_of_runOptions? loaded accounted rfl carried
  | display shown =>
    cases carried
    exact accounted.look (looks_show accounted.shaped budget shown)
  | removeBreakpoint id =>
    rw [carryOut] at carried
    split at carried
    all_goals
      cases carried
      exact accounted.look (.nil accounted.shaped)
  | exit | trace _ | addBreakpoint _ | watch _ | unwatch _ =>
    cases carried
    exact accounted.look (.nil accounted.shaped)

theorem accounted_answer {line : String}
    (loaded : Processor.Loaded configuration kind executable output start)
    (accounted : Accounted size range earlier start session.simulator)
    (answered : session.answer budget line = some (next, progress)) :
    Accounted size range (earlier ++ session.looksIn budget line) start next.simulator := by
  rw [answer] at answered
  rw [looksIn]
  cases reads : Command.read line with
  | ok command =>
    rw [reads] at answered
    exact accounted_carryOut loaded accounted answered
  | error missed =>
    rw [reads] at answered
    cases answered
    exact accounted.look (.nil accounted.shaped)

theorem accounted_answerAll {lines : List String}
    (loaded : Processor.Loaded configuration kind executable output start)
    (accounted : Accounted size range earlier start session.simulator)
    (answered : session.answerAll budget lines = some reached) :
    Accounted size range (earlier ++ session.looks budget lines) start reached.simulator := by
  induction lines generalizing session earlier with
  | nil =>
    cases answered
    exact accounted.look (.nil accounted.shaped)
  | cons line rest inductionHypothesis =>
    rcases Option.bind_eq_some_iff.mp answered with ⟨⟨next, progress⟩, first, others⟩
    have prompted : Accounted size range earlier start session.prompt.simulator := accounted
    have one := accounted_answer loaded prompted first
    rw [looks, first, ← List.append_assoc]
    match progress, others with
    | .over, others =>
      cases others
      rw [List.append_nil]
      exact one
    | .ongoing, others => exact inductionHypothesis one others

/-- A simulator that has just been loaded has not been looked at. -/
theorem accounted_of_load {simulator : Simulator}
    (loads : Simulator.load configuration kind executable output = .ok simulator) :
    Processor.Loaded configuration kind executable output simulator.processor ∧
      Accounted configuration.memorySize executable.textSection [] simulator.processor
        simulator := by
  rcases bind_eq_ok_iff.mp loads with ⟨start, begins, made⟩
  cases made
  have loaded := Processor.loaded_of_load begins
  have begun : start.runCycles start.cycle = .ok ([], start) := by
    rw [loaded.cycle]
    rfl
  refine ⟨loaded, .sound rfl begun ⟨.refl start, .refl _, .nil _, ?_, ?_⟩⟩
  · exact loaded.size_eq
  · exact loaded.textSection_eq

theorem accounted_hold {simulator : Simulator} {lines : List String} {closed : Session}
    (loads : Simulator.load configuration kind executable output = .ok simulator)
    (held : hold budget simulator lines = some closed) :
    Accounted configuration.memorySize executable.textSection
      ((opened simulator).looks budget lines) simulator.processor closed.simulator := by
  rcases accounted_of_load loads with ⟨loaded, accounted⟩
  rcases Option.bind_eq_some_iff.mp held with ⟨reached, answered, closes⟩
  cases closes
  have begun : Accounted configuration.memorySize executable.textSection [] simulator.processor
    (opened simulator).simulator := accounted
  have ended := accounted_answerAll loaded begun answered
  exact ended

/-- Two sessions with the same deeds end in the same cycle, and with the same
fault if there is one.  Their counts of accesses are those that the program makes
by itself and, besides, those of the looks of each.  So the counts are the same
exactly if both sessions look equally often at each register, at cells of the
text section and at other cells. -/
theorem hold_counts {simulator : Simulator} {spare : Nat} {lines others : List String}
    {closed other : Session}
    (loads : Simulator.load configuration kind executable output = .ok simulator)
    (held : hold budget simulator lines = some closed)
    (heldToo : hold spare simulator others = some other) (same : deeds lines = deeds others) :
    let size := configuration.memorySize
    let range := executable.textSection
    let looked := (opened simulator).looks budget lines
    let lookedToo := (opened simulator).looks spare others
    let counts := closed.simulator.processor.machine.accesses
    let countsToo := other.simulator.processor.machine.accesses
    other.simulator.cycle = closed.simulator.cycle ∧
      other.simulator.failure = closed.simulator.failure ∧
      (∃ own, Makes simulator.processor closed.simulator.cycle closed.simulator.failure own ∧
        Besides size range looked own counts ∧ Besides size range lookedToo own countsToo) ∧
      (counts = countsToo ↔ AsOften size range looked lookedToo) := by
  intro size range looked lookedToo counts countsToo
  have alike : closed.simulator.SameButAccesses other.simulator := by
    rcases Option.bind_eq_some_iff.mp held with ⟨reached, answered, closes⟩
    rcases Option.bind_eq_some_iff.mp heldToo with ⟨reachedToo, answeredToo, closesToo⟩
    cases closes
    cases closesToo
    have begun : (opened simulator).SameButLooks (opened simulator) := ⟨.refl _, rfl, rfl, rfl, rfl⟩
    exact (begun.answerAll same rfl answered answeredToo).simulator
  rcases (accounted_hold loads held).exists_makes with ⟨own, makes, besides⟩
  rcases (accounted_hold loads heldToo).exists_makes with ⟨ownToo, makesToo, besidesToo⟩
  rw [alike.cycle_eq, alike.failure_eq] at makesToo
  cases makes.unique makesToo
  exact ⟨alike.cycle_eq, alike.failure_eq, ⟨own, makes, besides, besidesToo⟩,
    besides.eq_iff besidesToo⟩

/-! ## Two sessions side by side -/

theorem exists_of_holds {property : Simulator → Session → Session → Bool}
    {lines others : List String}
    (holds : (Simulator.load configuration kind executable output).toOption.any (fun simulator =>
      (hold budget simulator lines).any fun closed =>
        (hold budget simulator others).any (property simulator closed)) = true) :
    ∃ simulator closed other,
      Simulator.load configuration kind executable output = .ok simulator ∧
      hold budget simulator lines = some closed ∧ hold budget simulator others = some other ∧
      property simulator closed other = true := by
  cases loads : Simulator.load configuration kind executable output with
  | error fault =>
    rw [loads] at holds
    cases holds
  | ok simulator =>
    rw [loads] at holds
    rcases (Option.any_eq_true _ _).mp holds with ⟨_, ⟨⟩, holds⟩
    rcases (Option.any_eq_true _ _).mp holds with ⟨closed, held, holds⟩
    rcases (Option.any_eq_true _ _).mp holds with ⟨other, heldToo, holds⟩
    exact ⟨simulator, closed, other, rfl, held, heldToo, holds⟩

end

/-- A register and a cell are watched at a stop, and another register is shown. -/
def watchingLines : List String :=
  ["watch rax\n", "watch mem 2\n", "step 4\n", "show rbx\n", "exit\n"]

/-- The same registers, at other times and in part, another cell of the text section,
one that memory does not have, and a view that is not counted. -/
def showingLines : List String :=
  ["show rbx\n", "watch mem 3\n", "watch raxb\n", "watch mem 9\n", "step 4\n", "show regs\n",
    "exit\n"]

theorem hold_counts_as_often :
    ∃ simulator closed other,
      Simulator.load Processor.cramped .gshare Processor.threeRounds .accepting = .ok simulator ∧
      hold 9 simulator watchingLines = some closed ∧
      hold 9 simulator showingLines = some other ∧
      deeds watchingLines = deeds showingLines ∧
      other.simulator.cycle = closed.simulator.cycle ∧
      closed.simulator.processor.machine.accesses =
        other.simulator.processor.machine.accesses := by
  have computed : (Simulator.load Processor.cramped .gshare Processor.threeRounds
      .accepting).toOption.any (fun simulator => (hold 9 simulator watchingLines).any fun _ =>
        (hold 9 simulator showingLines).any fun _ => decide (
          (opened simulator).looks 9 watchingLines =
            [.register (.full .rax), .cell ⟨2⟩, .register (.full .rbx)] ∧
          (opened simulator).looks 9 showingLines =
            [.register (.full .rbx), .register ⟨.rax, .byte⟩, .cell ⟨3⟩, .cell ⟨9⟩])) = true := by
    decide +kernel
  rcases exists_of_holds computed with ⟨simulator, closed, other, loads, held, heldToo, looked⟩
  rcases of_decide_eq_true looked with ⟨looked, lookedToo⟩
  have same : deeds watchingLines = deeds showingLines := by decide +kernel
  rcases hold_counts loads held heldToo same with ⟨cycle, -, -, often⟩
  rw [looked, lookedToo] at often
  refine ⟨simulator, closed, other, loads, held, heldToo, same, cycle, often.mpr ⟨?_, ?_⟩⟩
  · intro register
    cases register <;> rfl
  · intro inText
    cases inText <;> rfl

/-- Showing a register by itself counts as a read of it, showing all of them does not.  So two
sessions that differ in nothing but what they show report different counts in the same cycle. -/
theorem hold_counts_shown_register :
    ∃ simulator closed other,
      Simulator.load Processor.cramped .gshare Processor.threeRounds .accepting = .ok simulator ∧
      hold 9 simulator ["step 5\n", "show rax\n", "exit\n"] = some closed ∧
      hold 9 simulator ["step 5\n", "show regs\n", "exit\n"] = some other ∧
      closed.simulator.cycle = 5 ∧ other.simulator.cycle = 5 ∧
      closed.simulator.processor.machine.accesses.registers.cell .rax =
        " rax:         2 /         2" ∧
      other.simulator.processor.machine.accesses.registers.cell .rax =
        " rax:         1 /         2" := by
  have computed : (Simulator.load Processor.cramped .gshare Processor.threeRounds
      .accepting).toOption.any (fun simulator =>
        (hold 9 simulator ["step 5\n", "show rax\n", "exit\n"]).any fun closed =>
          (hold 9 simulator ["step 5\n", "show regs\n", "exit\n"]).any fun other => decide (
            closed.simulator.cycle = 5 ∧ other.simulator.cycle = 5 ∧
            closed.simulator.processor.machine.accesses.registers.cell .rax =
              " rax:         2 /         2" ∧
            other.simulator.processor.machine.accesses.registers.cell .rax =
              " rax:         1 /         2")) = true := by
    decide +kernel
  rcases exists_of_holds computed with ⟨simulator, closed, other, loads, held, heldToo, counted⟩
  exact ⟨simulator, closed, other, loads, held, heldToo, of_decide_eq_true counted⟩

end Session
end BranchPipeline
