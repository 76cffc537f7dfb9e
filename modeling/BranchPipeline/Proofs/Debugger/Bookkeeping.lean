import BranchPipeline.Proofs.Debugger.History
import BranchPipeline.Proofs.Simulation.Undisturbed

namespace BranchPipeline

/-!
# What a debugger session has noted

A session notes breakpoints and what is to be watched, and shows its notes on
request.  What it has noted depends on the commands alone that it was given,
whatever the program did between them.
-/

/-! ## Notes -/

/-- What a session has noted. -/
structure Notes where
  breakpoints : Breakpoints := []
  nextBreakpoint : Nat := 0
  watchings : Watchings := {}

namespace Notes

open Command

/-- What a command adds to the notes or strikes out. -/
def after (notes : Notes) : Command → Notes
  | .addBreakpoint condition =>
    { notes with
      breakpoints := notes.breakpoints.insert ⟨notes.nextBreakpoint, condition⟩
      nextBreakpoint := notes.nextBreakpoint + 1 }
  | .removeBreakpoint id => { notes with breakpoints := notes.breakpoints.erase id }
  | .watch watched => { notes with watchings := Session.beginWatching notes.watchings watched }
  | .unwatch watched => { notes with watchings := Session.endWatching notes.watchings watched }
  | .exit | .again | .mode _ | .trace _ | .display _ => notes

/-- The notes are what remains of the commands. -/
structure Remain (notes : Notes) (commands : List Command) : Prop where
  breakpoints : Numbers commands notes.breakpoints notes.nextBreakpoint
  registers : Lists .register commands notes.watchings.registers
  addresses : Lists .cell commands notes.watchings.addresses

variable {notes : Notes} {commands : List Command}

theorem beginWatching_register (watchings : Watchings) (ref : RegisterRef) :
    Session.beginWatching watchings (.register ref) =
      { watchings with
        registers := if ref ∈ watchings.registers then watchings.registers
          else watchings.registers ++ [ref] } := by
  rw [Session.beginWatching]
  split <;> rfl

theorem beginWatching_cell (watchings : Watchings) (address : Address) :
    Session.beginWatching watchings (.cell address) =
      { watchings with
        addresses := if address ∈ watchings.addresses then watchings.addresses
          else watchings.addresses ++ [address] } := by
  rw [Session.beginWatching]
  split <;> rfl

theorem Remain.after (remain : notes.Remain commands) (last : Command) :
    (notes.after last).Remain (commands ++ [last]) := by
  have registerInjective : Function.Injective Watched.register := fun _ _ => Watched.register.inj
  have cellInjective : Function.Injective Watched.cell := fun _ _ => Watched.cell.inj
  rcases remain with ⟨breakpoints, registers, addresses⟩
  cases last with
  | addBreakpoint condition =>
    exact ⟨breakpoints.add condition, registers.skip nofun nofun, addresses.skip nofun nofun⟩
  | removeBreakpoint id =>
    exact ⟨breakpoints.remove id, registers.skip nofun nofun, addresses.skip nofun nofun⟩
  | watch watched =>
    cases watched with
    | register ref =>
      refine ⟨breakpoints.skip rfl nofun, ?_, ?_⟩
      · rw [Notes.after, beginWatching_register]
        exact registers.watch registerInjective ref
      · rw [Notes.after, beginWatching_register]
        exact addresses.skip nofun nofun
    | cell address =>
      refine ⟨breakpoints.skip rfl nofun, ?_, ?_⟩
      · rw [Notes.after, beginWatching_cell]
        exact registers.skip nofun nofun
      · rw [Notes.after, beginWatching_cell]
        exact addresses.watch cellInjective address
  | unwatch watched =>
    cases watched with
    | register ref =>
      exact ⟨breakpoints.skip rfl nofun, registers.unwatch registerInjective ref,
        addresses.skip nofun nofun⟩
    | cell address =>
      exact ⟨breakpoints.skip rfl nofun, registers.skip nofun nofun,
        addresses.unwatch cellInjective address⟩
  | exit | again | mode chosen | trace enabled | display shown =>
    exact ⟨breakpoints.skip rfl nofun, registers.skip nofun nofun, addresses.skip nofun nofun⟩

/-- What remains of commands that are given one after the other. -/
theorem remain_foldl (commands : List Command) :
    (commands.foldl Notes.after {}).Remain commands := by
  induction commands using List.reverseRecOn with
  | nil => exact ⟨.nil, .nil _, .nil _⟩
  | append_singleton commands last inductionHypothesis =>
    rw [List.foldl_append]
    exact inductionHypothesis.after last

end Notes

/-! ## Sessions -/

/-- The commands that are written in lines. -/
def commandsOf (lines : List String) : List Command :=
  lines.filterMap fun line => (Command.read line).toOption

namespace Session

variable {session next reached : Session} {budget : Nat} {progress : Progress}

/-- A session that has read nothing yet. -/
def opened (simulator : Simulator) : Session :=
  ({ simulator } : Session).printLine s!"entering interactive ({simulator.kind.name})."

/-- What the session has noted. -/
def notes (session : Session) : Notes where
  breakpoints := session.options.breakpoints
  nextBreakpoint := session.nextBreakpoint
  watchings := session.options.watchings

/-- The program has no part in the notes. -/
theorem notes_runProgram (ran : session.runProgram budget = some (next, progress)) :
    next.notes = session.notes := by
  rcases run_of_runProgram ran with ⟨-, simulator, console, rfl⟩
  rfl

theorem notes_carryOut {command : Command}
    (carried : session.carryOut budget command = some (next, progress)) :
    next.notes = session.notes.after command := by
  cases command with
  | again => exact notes_runProgram carried
  | mode chosen =>
    have kept := notes_runProgram carried
    exact kept
  | removeBreakpoint id =>
    rw [carryOut] at carried
    split at carried
    all_goals
      cases carried
      rfl
  | exit | trace _ | addBreakpoint _ | watch _ | unwatch _ | display _ =>
    cases carried
    rfl

theorem notes_answer {line : String}
    (answered : session.answer budget line = some (next, progress)) :
    next.notes = (commandsOf [line]).foldl Notes.after session.notes := by
  rw [answer] at answered
  split at answered
  · rename_i command reads
    rw [commandsOf, List.filterMap_cons, List.filterMap_nil, reads]
    exact notes_carryOut answered
  · rename_i missed reads
    cases answered
    rw [commandsOf, List.filterMap_cons, List.filterMap_nil, reads]
    rfl

/-- The lines that a session reads before it is over. -/
def linesRead (budget : Nat) (session : Session) : List String → List String
  | [] => []
  | line :: rest =>
    line ::
      match session.prompt.answer budget line with
      | some (next, .ongoing) => next.linesRead budget rest
      | some (_, .over) | none => []

theorem notes_answerAll {lines : List String}
    (answered : session.answerAll budget lines = some reached) :
    reached.notes =
      (commandsOf (session.linesRead budget lines)).foldl Notes.after session.notes := by
  induction lines generalizing session with
  | nil =>
    cases answered
    rfl
  | cons line rest inductionHypothesis =>
    rcases Option.bind_eq_some_iff.mp answered with ⟨⟨next, progress⟩, first, others⟩
    have one := notes_answer first
    rw [linesRead, first]
    match progress, others with
    | .over, others =>
      cases others
      exact one
    | .ongoing, others =>
      have later := inductionHypothesis others
      rw [one, ← List.foldl_append, commandsOf, commandsOf, ← List.filterMap_append] at later
      exact later

/-- A line that is no command is explained, and nothing else happens. -/
theorem answer_of_error {line : String} {missed : Missed}
    (misread : Command.read line = .error missed) (budget : Nat) (session : Session) :
    ∃ next, session.answer budget line = some (next, .ongoing) ∧ next.options = session.options ∧
      next.nextBreakpoint = session.nextBreakpoint ∧ next.simulator = session.simulator := by
  refine ⟨session.printLine s!"parse error: expected {missed.text}", ?_, rfl, rfl, rfl⟩
  rw [answer, misread]

/-- A command that does not run the program only looks at the simulator. -/
theorem answer_of_static {line : String} {command : Command}
    (reads : Command.read line = .ok command) (static : command.isStatic = true) (budget : Nat)
    (session : Session) :
    ∃ next, session.answer budget line = some (next, .ongoing) ∧
      session.simulator.LookedAt next.simulator := by
  have carried : (∃ next, session.carryOut budget command = some (next, .ongoing)) ∧
      session.ending? budget command = none := by
    cases command with
    | exit | again | mode _ => cases static
    | trace _ | addBreakpoint _ | removeBreakpoint _ | watch _ | unwatch _ | display _ =>
      exact ⟨⟨_, rfl⟩, rfl⟩
  rcases carried with ⟨⟨next, carried⟩, quiet⟩
  refine ⟨next, ?_, ?_⟩
  · rw [answer, reads]
    exact carried
  · rcases runs_of_carryOut carried with ⟨ending, asks, -⟩ | ⟨-, looked⟩
    · cases quiet.symm.trans asks
    · exact looked

/-- Whatever lines a session is given, it ends with the breakpoints in force, numbered in
the order in which they were set, and with lists of what is to be watched.  A line that is
no command changes neither options nor simulator, and a command that does not run the
program leaves it in the cycle in which it was. -/
theorem hold_notes {simulator : Simulator} {lines : List String} {closed : Session}
    (held : hold budget simulator lines = some closed) :
    let commands := commandsOf ((opened simulator).linesRead budget lines)
    Command.Numbers commands closed.options.breakpoints closed.nextBreakpoint ∧
    (closed.options.watchings.registers.Nodup ∧
      Command.Lists .register commands closed.options.watchings.registers) ∧
    (closed.options.watchings.addresses.Nodup ∧
      Command.Lists .cell commands closed.options.watchings.addresses) ∧
    (∀ line missed, Command.read line = .error missed → ∀ session : Session,
      ∃ next, session.answer budget line = some (next, .ongoing) ∧
        next.options = session.options ∧ next.nextBreakpoint = session.nextBreakpoint ∧
        next.simulator = session.simulator) ∧
    ∀ line command, Command.read line = .ok command → command.isStatic = true →
      ∀ session : Session, ∃ next, session.answer budget line = some (next, .ongoing) ∧
        next.simulator.cycle = session.simulator.cycle := by
  intro commands
  rcases Option.bind_eq_some_iff.mp held with ⟨reached, answered, closes⟩
  cases closes
  have remain := Notes.remain_foldl commands
  have noted : reached.notes = commands.foldl Notes.after {} := notes_answerAll answered
  rw [← noted] at remain
  refine ⟨remain.breakpoints, ⟨remain.registers.nodup, remain.registers⟩,
    ⟨remain.addresses.nodup, remain.addresses⟩, ?_, ?_⟩
  · intro line missed misread session
    exact answer_of_error misread budget session
  · intro line command reads static session
    rcases answer_of_static reads static budget session with ⟨next, answered, looked⟩
    exact ⟨next, answered, looked.processor.cycle_eq⟩

/-- Breakpoints are set, removed too early and in time; a register is watched, let go and
watched again, with a run and a line that says nothing in between. -/
def busyLines : List String :=
  ["bp cycle 9\n", "watch rbx\n", "bp rm 1\n", "break op jmp\n", "step 2\n", "watch raxb\n",
    "watch mem 0x2\n", "frob\n", "bp rm 0\n", "unwatch rbx\n", "break operand rax\n",
    "watch rbx\n", "watch raxb\n", "exit\n", "bp rm 1\n"]

/-- The first breakpoint is gone, the third one waits under its own number, and `rbx`
comes last. -/
theorem hold_notes_busy :
    ∃ simulator closed commands,
      Simulator.load Processor.cramped .gshare Processor.threeRounds .accepting = .ok simulator ∧
      hold 9 simulator busyLines = some closed ∧
      commands = commandsOf ((opened simulator).linesRead 9 busyLines) ∧
      ¬ Command.InForce 0 (.cycle 9) commands ∧
      Command.InForce 2 (.operand "rax") commands ∧
      closed.nextBreakpoint = 3 ∧
      Command.Lists .register commands [⟨.rax, .byte⟩, .full .rbx] := by
  have computed : (Simulator.load Processor.cramped .gshare Processor.threeRounds
      .accepting).toOption.any (fun simulator => (hold 9 simulator busyLines).any fun closed =>
        decide (closed.options.breakpoints = [⟨1, .opcode .jump⟩, ⟨2, .operand "rax"⟩] ∧
          closed.nextBreakpoint = 3 ∧
          closed.options.watchings.registers = [⟨.rax, .byte⟩, .full .rbx])) = true := by
    decide +kernel
  cases loads : Simulator.load Processor.cramped .gshare Processor.threeRounds .accepting with
  | error fault =>
    rw [loads] at computed
    cases computed
  | ok simulator =>
    rw [loads] at computed
    rcases (Option.any_eq_true _ _).mp computed with ⟨_, ⟨⟩, computed⟩
    rcases (Option.any_eq_true _ _).mp computed with ⟨closed, held, checked⟩
    rcases of_decide_eq_true checked with ⟨breakpoints, next, registers⟩
    rcases hold_notes held with ⟨numbers, ⟨-, lists⟩, -⟩
    refine ⟨simulator, closed, _, rfl, held, rfl, ?_, ?_, next, registers ▸ lists⟩
    · rw [← numbers.mem_iff, breakpoints]
      decide
    · rw [← numbers.mem_iff, breakpoints]
      decide

end Session
end BranchPipeline
