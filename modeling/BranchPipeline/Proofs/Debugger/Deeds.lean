import BranchPipeline.Proofs.Simulation.Undisturbed
import BranchPipeline.Proofs.Simulation.Unseen

namespace BranchPipeline

/-!
# What a session does besides looking

The commands that show something or change what is watched do not move the
program.  The others are the deeds of a session.  Sessions with the same deeds,
in the same order, lead to the same place: they run the same cycles, meet the
same fault and keep the same breakpoints, whatever they look at between them and
whatever is watched.
-/

namespace Command

/-- Shows something, or changes what is watched. -/
def isLook : Command → Bool
  | .display _ | .watch _ | .unwatch _ => true
  | _ => false

end Command

/-- The command in a line, unless it only looks. -/
def deed? (line : String) : Option Command :=
  (Command.read line).toOption.filter fun command => !command.isLook

/-- The commands in lines that do more than look. -/
def deeds (lines : List String) : List Command := lines.filterMap deed?

namespace Session

open Simulator

variable {session next first second reached : Session} {budget : Nat} {progress : Progress}
  {command : Command}

/-! ## Commands -/

/-- The sessions differ at most in what has been looked at and is to be watched. -/
structure SameButLooks (first second : Session) : Prop where
  simulator : first.simulator.SameButAccesses second.simulator
  mode : second.options.mode = first.options.mode
  tracing : second.options.tracing = first.options.tracing
  breakpoints : second.options.breakpoints = first.options.breakpoints
  nextBreakpoint : second.nextBreakpoint = first.nextBreakpoint

theorem sameButLooks_print (session : Session) (text : String) :
    session.SameButLooks (session.print text) :=
  ⟨.refl _, rfl, rfl, rfl, rfl⟩

theorem SameButLooks.symm (same : first.SameButLooks second) : second.SameButLooks first :=
  ⟨same.simulator.symm, same.mode.symm, same.tracing.symm, same.breakpoints.symm,
    same.nextBreakpoint.symm⟩

theorem SameButLooks.trans {third : Session} (one : first.SameButLooks second)
    (two : second.SameButLooks third) : first.SameButLooks third where
  simulator := one.simulator.trans two.simulator
  mode := two.mode.trans one.mode
  tracing := two.tracing.trans one.tracing
  breakpoints := two.breakpoints.trans one.breakpoints
  nextBreakpoint := two.nextBreakpoint.trans one.nextBreakpoint

/-- A command that only looks does nothing else. -/
theorem sameButLooks_of_isLook (looks : command.isLook = true)
    (carried : session.carryOut budget command = some (next, progress)) :
    progress = .ongoing ∧ session.SameButLooks next := by
  cases command with
  | display shown =>
    cases carried
    refine ⟨rfl, ?_, rfl, rfl, rfl, rfl⟩
    cases shown with
    | register ref => exact sameButAccesses_readRegister session.simulator ref
    | _ => exact .refl _
  | watch watched | unwatch watched =>
    cases carried
    exact ⟨rfl, .refl _, rfl, rfl, rfl, rfl⟩
  | _ => cases looks

/-- A command that runs the program does so from where the session stands. -/
theorem exists_runProgram {options : Options}
    (asks : runOptions? session.options command = some options)
    (carried : session.carryOut budget command = some (next, progress)) :
    ∃ asked : Session, asked.simulator = session.simulator ∧ asked.options = options ∧
      asked.nextBreakpoint = session.nextBreakpoint ∧
      asked.runProgram budget = some (next, progress) := by
  cases command with
  | again =>
    cases asks
    exact ⟨session, rfl, rfl, rfl, carried⟩
  | mode chosen =>
    cases asks
    refine ⟨(session.printLine s!"mode: {chosen.text}").withOptions fun options =>
      { options with mode := chosen }, ?_⟩
    exact ⟨rfl, rfl, rfl, carried⟩
  | _ => cases asks

/-- A session is over exactly if the program has exited. -/
theorem over_iff_exited {ending : RunEnd} {after : Simulator} {console : Console}
    (ran : session.runProgram budget = some (next, progress))
    (ends : session.simulator.run session.options Console.observe budget session.console =
      some (ending, after, console)) : progress = .over ↔ ending = .exited := by
  rw [runProgram, ends] at ran
  cases ending with
  | exited =>
    cases ran
    exact ⟨fun _ => rfl, fun _ => rfl⟩
  | stopped reason watched =>
    cases ran
    exact ⟨nofun, nofun⟩

theorem SameButLooks.runProgram {spare : Nat} {more : Progress}
    (same : first.SameButLooks second)
    (one : first.runProgram budget = some (next, progress))
    (two : second.runProgram spare = some (reached, more)) :
    more = progress ∧ next.SameButLooks reached := by
  rcases run_of_runProgram one with ⟨⟨ending, console, ran⟩, simulator, text, made⟩
  rcases run_of_runProgram two with ⟨⟨ended, shown, repeated⟩, other, told, madeToo⟩
  rcases same.simulator.run same.mode same.breakpoints ran repeated with ⟨ends, alike⟩
  have exits : progress = .over ↔ more = .over :=
    (over_iff_exited one ran).trans (ends.trans (over_iff_exited two repeated).symm)
  constructor
  · cases progress with
    | ongoing =>
      cases more with
      | ongoing => rfl
      | _ => cases exits.mpr rfl
    | _ => exact exits.mp rfl
  · refine ⟨alike, ?_, ?_, ?_, ?_⟩
    · rw [made, madeToo]
      exact same.mode
    · rw [made, madeToo]
      exact same.tracing
    · rw [made, madeToo]
      exact same.breakpoints
    · rw [made, madeToo]
      exact same.nextBreakpoint

theorem SameButLooks.runOptions? {options : Options} (same : first.SameButLooks second)
    (asks : runOptions? first.options command = some options) :
    ∃ asked, Session.runOptions? second.options command = some asked ∧
      asked.mode = options.mode ∧ asked.tracing = options.tracing ∧
      asked.breakpoints = options.breakpoints := by
  cases command with
  | again =>
    cases asks
    exact ⟨_, rfl, same.mode, same.tracing, same.breakpoints⟩
  | mode chosen =>
    cases asks
    exact ⟨_, rfl, rfl, same.tracing, same.breakpoints⟩
  | _ => cases asks

/-- The same command does the same in both. -/
theorem SameButLooks.carryOut {spare : Nat} {more : Progress} (same : first.SameButLooks second)
    (deed : command.isLook = false)
    (one : first.carryOut budget command = some (next, progress))
    (two : second.carryOut spare command = some (reached, more)) :
    more = progress ∧ next.SameButLooks reached := by
  have runs {options : Options} (asks : Session.runOptions? first.options command = some options) :
      more = progress ∧ next.SameButLooks reached := by
    rcases same.runOptions? asks with ⟨asked, asksToo, mode, tracing, breakpoints⟩
    rcases exists_runProgram asks one with ⟨begun, simulator, rfl, number, ran⟩
    rcases exists_runProgram asksToo two with ⟨other, simulatorToo, rfl, numberToo, ranToo⟩
    have alike : begun.SameButLooks other := by
      have numbers := numberToo.trans (same.nextBreakpoint.trans number.symm)
      refine ⟨?_, mode, tracing, breakpoints, numbers⟩
      rw [simulator, simulatorToo]
      exact same.simulator
    exact alike.runProgram ran ranToo
  cases command with
  | again | mode chosen => exact runs rfl
  | exit =>
    cases one
    cases two
    exact ⟨rfl, same⟩
  | trace enabled =>
    cases one
    cases two
    exact ⟨rfl, same.simulator, same.mode, rfl, same.breakpoints, same.nextBreakpoint⟩
  | addBreakpoint condition =>
    cases one
    cases two
    have numbers := congrArg (· + 1) same.nextBreakpoint
    refine ⟨rfl, same.simulator, same.mode, same.tracing, ?_, numbers⟩
    show second.options.breakpoints.insert ⟨second.nextBreakpoint, condition⟩ =
      first.options.breakpoints.insert ⟨first.nextBreakpoint, condition⟩
    rw [same.breakpoints, same.nextBreakpoint]
  | removeBreakpoint id =>
    rw [Session.carryOut] at one two
    have erased := congrArg (·.erase id) same.breakpoints
    split at one
    all_goals
      cases one
      split at two
      all_goals
        cases two
        exact ⟨rfl, same.simulator, same.mode, same.tracing, erased, same.nextBreakpoint⟩
  | display _ | watch _ | unwatch _ => cases deed

/-! ## Lines -/

variable {line : String} {lines others : List String} {commands : List Command}

theorem deed?_eq_some_iff :
    deed? line = some command ↔ Command.read line = .ok command ∧ command.isLook = false := by
  rw [deed?, Option.filter_eq_some_iff, Bool.not_eq_true']
  cases Command.read line <;> simp [Except.toOption]

/-- A line without a deed changes nothing but what is looked at. -/
theorem sameButLooks_of_deed?_eq_none (idle : deed? line = none)
    (answered : session.answer budget line = some (next, progress)) :
    progress = .ongoing ∧ session.SameButLooks next := by
  rw [answer] at answered
  cases reads : Command.read line with
  | error missed =>
    rw [reads] at answered
    cases answered
    exact ⟨rfl, sameButLooks_print session _⟩
  | ok command =>
    rw [reads] at answered
    have looks : command.isLook = true := by
      cases deed : command.isLook with
      | true => rfl
      | false => cases idle.symm.trans (deed?_eq_some_iff.mpr ⟨reads, deed⟩)
    exact sameButLooks_of_isLook looks answered

theorem sameButLooks_prompt (session : Session) : session.SameButLooks session.prompt :=
  sameButLooks_print session _

/-- Where no deed is done, the session stays where it is. -/
theorem sameButLooks_of_deeds_eq_nil (idle : deeds lines = [])
    (answered : session.answerAll budget lines = some reached) :
    session.SameButLooks reached := by
  induction lines generalizing session with
  | nil =>
    cases answered
    exact sameButLooks_prompt session
  | cons line rest inductionHypothesis =>
    rcases Option.bind_eq_some_iff.mp answered with ⟨⟨next, progress⟩, first, others⟩
    rcases List.filterMap_eq_nil_iff.mp idle line List.mem_cons_self with undone
    rcases sameButLooks_of_deed?_eq_none undone first with ⟨rfl, same⟩
    have later : deeds rest = [] := List.filterMap_eq_nil_iff.mpr fun other member =>
      List.filterMap_eq_nil_iff.mp idle other (List.mem_cons_of_mem line member)
    exact ((sameButLooks_prompt session).trans same).trans (inductionHypothesis later others)

/-- The first deed of a session, done where the session stood in the beginning. -/
theorem exists_deed (done : deeds lines = command :: commands)
    (answered : session.answerAll budget lines = some reached) :
    ∃ middle next progress rest, session.SameButLooks middle ∧ command.isLook = false ∧
      middle.carryOut budget command = some (next, progress) ∧ deeds rest = commands ∧
      match progress with
      | .over => reached = next
      | .ongoing => next.answerAll budget rest = some reached := by
  induction lines generalizing session with
  | nil => cases done
  | cons line rest inductionHypothesis =>
    rcases Option.bind_eq_some_iff.mp answered with ⟨⟨next, progress⟩, first, others⟩
    cases found : deed? line with
    | none =>
      rcases sameButLooks_of_deed?_eq_none found first with ⟨rfl, same⟩
      rw [deeds, List.filterMap_cons_none found] at done
      rcases inductionHypothesis done others with ⟨middle, final, progress, left, stays, deed⟩
      exact ⟨middle, final, progress, left, ((sameButLooks_prompt session).trans same).trans stays,
        deed⟩
    | some held =>
      rw [deeds, List.filterMap_cons_some found] at done
      cases done
      rcases deed?_eq_some_iff.mp found with ⟨reads, deed⟩
      rw [answer, reads] at first
      refine ⟨session.prompt, next, progress, rest, sameButLooks_prompt session, deed, first, rfl,
        ?_⟩
      match progress, others with
      | .over, others =>
        cases others
        rfl
      | .ongoing, others => exact others

/-- Sessions with the same deeds lead to the same place. -/
theorem SameButLooks.answerAll {spare : Nat} {closed : Session} (same : first.SameButLooks second)
    (done : deeds lines = commands) (doneToo : deeds others = commands)
    (one : first.answerAll budget lines = some reached)
    (two : second.answerAll spare others = some closed) : reached.SameButLooks closed := by
  induction commands generalizing first second lines others with
  | nil =>
    have stays := sameButLooks_of_deeds_eq_nil done one
    have staysToo := sameButLooks_of_deeds_eq_nil doneToo two
    exact stays.symm.trans (same.trans staysToo)
  | cons command commands inductionHypothesis =>
    rcases exists_deed done one with ⟨middle, next, progress, rest, stays, deed, ran, left, ends⟩
    rcases exists_deed doneToo two with
      ⟨between, after, more, behind, staysToo, -, repeated, leftToo, endsToo⟩
    have alike := stays.symm.trans (same.trans staysToo)
    rcases alike.carryOut deed ran repeated with ⟨rfl, alike⟩
    cases more with
    | ongoing => exact inductionHypothesis alike left leftToo ends endsToo
    | _ =>
      cases ends
      cases endsToo
      exact alike

end Session
end BranchPipeline
