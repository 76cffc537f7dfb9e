import BranchPipeline.Proofs.Debugger.Leads
import BranchPipeline.Proofs.Debugger.Vocabulary
import BranchPipeline.Simulation.Simulator

namespace BranchPipeline
namespace Command

open Rule

/-!
# The command language

A line is a command if its words form one of the sentences below, and the command
is the one that the sentence stands for.
-/

/-- How far to run. -/
inductive ModeSentence : List String → Mode → Prop
  | free : ModeSentence ["run"] .free
  | step : ModeSentence ["step"] (.steps none)
  | steps {word : String} {number : Nat} (counts : CountsEither word number) :
    ModeSentence ["step", word] (.steps (some number))
  | until {word : String} {cycle : Nat} (counts : Counts word cycle) :
    ModeSentence ["until", word] (.until cycle)

/-- What a breakpoint waits for. -/
inductive ConditionSentence : List String → BreakCondition → Prop
  | opcode {key word : String} {awaited : MicroOpcode} (listed : key ∈ ["opcode", "op"])
    (names : NamesOpcode word awaited) : ConditionSentence [key, word] (.opcode awaited)
  | operand {word : String} (isWord : IsWord word) :
    ConditionSentence ["operand", word] (.operand word)
  | cycle {word : String} {number : Nat} (counts : Counts word number) :
    ConditionSentence ["cycle", word] (.cycle number)

/-- What to watch. -/
inductive WatchedSentence : List String → Watched → Prop
  | cell {key word : String} {number : Nat} (listed : key ∈ ["memory", "mem"])
    (counts : CountsEither word number) : WatchedSentence [key, word] (.cell ⟨number⟩)
  | prefixed {key word : String} {ref : RegisterRef} (listed : key ∈ ["register", "reg"])
    (names : NamesRegister word ref) : WatchedSentence [key, word] (.register ref)
  | register {word : String} {ref : RegisterRef} (names : NamesRegister word ref) :
    WatchedSentence [word] (.register ref)

/-- The things that a single keyword asks for. -/
def shownKeywords : List (String × Shown) := [
  ("registers", .registers), ("regs", .registers), ("rob", .reorder), ("pipeline", .pipeline),
  ("predictor", .predictor), ("trace", .lastTrace), ("break", .breakpoints), ("bp", .breakpoints),
  ("stat", .statistics), ("cycle", .cycle), ("stall", .stalls), ("watchings", .watchings),
  ("watch", .watchings)]

/-- What to show. -/
inductive ShownSentence : List String → Shown → Prop
  | keyword {key : String} {shown : Shown} (listed : (key, shown) ∈ shownKeywords) :
    ShownSentence [key] shown
  /-- A single cell. -/
  | cell {key word : String} {start : Nat} (listed : key ∈ ["memory", "mem"])
    (counts : CountsEither word start) : ShownSentence [key, word] (.memory ⟨start⟩ 1)
  | cells {key word size : String} {start length : Nat} (listed : key ∈ ["memory", "mem"])
    (counts : CountsEither word start) (sized : Counts size length) :
    ShownSentence [key, word, size] (.memory ⟨start⟩ length)
  | register {word : String} {ref : RegisterRef} (names : NamesRegister word ref) :
    ShownSentence [word] (.register ref)

/-- Whether to report what happens in a cycle. -/
inductive TraceSentence : List String → Bool → Prop
  | off : TraceSentence ["trace", "off"] false
  | plain : TraceSentence ["trace"] true
  | on : TraceSentence ["trace", "on"] true

/-- Breakpoints are added and removed. -/
inductive BreakpointSentence : List String → Command → Prop
  | remove {key verb word : String} {id : Nat} (listed : key ∈ ["break", "bp"])
    (removes : verb ∈ ["rm", "remove"]) (counts : Counts word id) :
    BreakpointSentence [key, verb, word] (.removeBreakpoint id)
  | add {key : String} {others : List String} {condition : BreakCondition}
    (listed : key ∈ ["break", "bp"]) (spoken : ConditionSentence others condition) :
    BreakpointSentence (key :: others) (.addBreakpoint condition)

/-- The sentences that do not run the program, other than the one that ends the session. -/
inductive StaticSentence : List String → Command → Prop
  | trace {sentence : List String} {enabled : Bool} (spoken : TraceSentence sentence enabled) :
    StaticSentence sentence (.trace enabled)
  | breakpoint {sentence : List String} {command : Command}
    (spoken : BreakpointSentence sentence command) : StaticSentence sentence command
  | watch {others : List String} {watched : Watched} (spoken : WatchedSentence others watched) :
    StaticSentence ("watch" :: others) (.watch watched)
  | unwatch {others : List String} {watched : Watched} (spoken : WatchedSentence others watched) :
    StaticSentence ("unwatch" :: others) (.unwatch watched)
  | display {others : List String} {shown : Shown} (spoken : ShownSentence others shown) :
    StaticSentence ("show" :: others) (.display shown)

/-- All sentences. -/
inductive Sentence : List String → Command → Prop
  | again : Sentence [] .again
  | exit : Sentence ["exit"] .exit
  | mode {sentence : List String} {chosen : Mode} (spoken : ModeSentence sentence chosen) :
    Sentence sentence (.mode chosen)
  | static {sentence : List String} {command : Command}
    (spoken : StaticSentence sentence command) : Sentence sentence command

/-! ## The rules, one by one -/

theorem led_mode : modeRule.Led ModeSentence ["until", "run", "step"] := by
  have reach := led_word (lexical_keyword "until" (by decide)) lexical_count Mode.until
  have run := led_keyword (lexical_keyword "run" (by decide)) Mode.free
  have step := led_maybe (lexical_keyword "step" (by decide)) lexical_anyCount.speaks nofun nofun
    Mode.steps
  refine (reach.orElse (run.orElse step (by decide)) (by decide)).congr fun sentence mode => ?_
  simp only [List.mem_singleton, exists_eq_left]
  constructor
  · rintro (⟨word, cycle, rfl, counts, rfl⟩ | ⟨rfl, rfl⟩ | ⟨rfl, rfl⟩ |
      ⟨_, number, rfl, ⟨word, rfl, counts⟩, rfl⟩)
    · exact .until counts
    · exact .free
    · exact .step
    · exact .steps counts
  · rintro (_ | _ | counts | counts)
    · exact Or.inr (Or.inl ⟨rfl, rfl⟩)
    · exact Or.inr (Or.inr (Or.inl ⟨rfl, rfl⟩))
    · exact Or.inr (Or.inr (Or.inr ⟨_, _, rfl, ⟨_, rfl, counts⟩, rfl⟩))
    · exact Or.inl ⟨_, _, rfl, counts, rfl⟩

theorem led_condition :
    conditionRule.Led ConditionSentence ["opcode", "op", "operand", "cycle"] := by
  have operands := led_word (lexical_keyword "operand" (by decide)) lexical_word
    BreakCondition.operand
  have cycles := led_word (lexical_keyword "cycle" (by decide)) lexical_count BreakCondition.cycle
  have others := operands.orElse cycles (by decide)
  have all := led_then_orElse (lexical_spelled "opcode" "op" (by decide))
    (lexical_opcode.speaks.map BreakCondition.opcode) (by rintro _ ⟨_, ⟨_, ⟨⟩, _⟩, _⟩) others ?_
  · refine all.congr fun sentence condition => ?_
    simp only [List.mem_singleton, exists_eq_left]
    constructor
    · rintro (⟨key, listed, _, rfl, awaited, ⟨word, rfl, names⟩, rfl⟩ |
        ⟨word, _, rfl, ⟨rfl, isWord⟩, rfl⟩ | ⟨word, number, rfl, counts, rfl⟩)
      · exact .opcode listed names
      · exact .operand isWord
      · exact .cycle counts
    · rintro (⟨listed, names⟩ | isWord | counts)
      · exact Or.inl ⟨_, listed, _, rfl, _, ⟨_, rfl, names⟩, rfl⟩
      · exact Or.inr (Or.inl ⟨_, _, rfl, ⟨rfl, isWord⟩, rfl⟩)
      · exact Or.inr (Or.inr ⟨_, _, rfl, counts, rfl⟩)
  · intro key listed rest condition spoken
    have disjoint : ∀ key ∈ ["opcode", "op"], key ∉ ["operand"] ++ ["cycle"] := by decide
    exact absurd (others.mem_of_cons spoken) (disjoint key listed)

/-- The keywords that stand where a register name may stand. -/
def besideRegisters : List String :=
  ["memory", "mem", "register", "reg"] ++ shownKeywords.map Prod.fst

theorem clear_registerWords : Clear besideRegisters registerWords := by
  decide +kernel

/-- Keywords in front of other keywords and the register names. -/
theorem clear_append_registerWords {keys more : List String}
    (beside : ∀ key ∈ keys, key ∈ besideRegisters)
    (clear : Clear keys more) : Clear keys (more ++ registerWords) := by
  intro word listed key among
  rcases List.mem_append.mp listed with listed | listed
  · exact clear word listed key among
  · exact clear_registerWords word listed key (beside key among)

theorem led_register {α : Type} (change : RegisterRef → α) :
    (register >>= fun ref => pure (change ref)).Led
      (fun sentence result => ∃ word ref, sentence = [word] ∧ NamesRegister word ref ∧
        result = change ref) ([] ++ registerWords) := by
  refine ((lexical_register.led fun _ _ => mem_registerWords).map change).congr ?_
  intro sentence result
  constructor
  · rintro ⟨ref, ⟨word, rfl, names⟩, rfl⟩
    exact ⟨word, ref, rfl, names, rfl⟩
  · rintro ⟨word, ref, rfl, names, rfl⟩
    exact ⟨ref, ⟨word, rfl, names⟩, rfl⟩

theorem led_watched :
    watchedRule.Led WatchedSentence (["memory", "mem", "register", "reg"] ++ registerWords) := by
  have cells := led_word (lexical_spelled "memory" "mem" (by decide)) lexical_address Watched.cell
  have prefixed := led_word (lexical_spelled "register" "reg" (by decide)) lexical_register
    Watched.register
  have both := prefixed.orElse (led_register Watched.register)
    (clear_append_registerWords (by decide) (by decide))
  have all := cells.orElse both (clear_append_registerWords (by decide) (by decide))
  refine all.congr fun sentence watched => ?_
  constructor
  · rintro (⟨key, listed, word, ⟨number⟩, rfl, counts, rfl⟩ |
      ⟨key, listed, word, ref, rfl, names, rfl⟩ | ⟨word, ref, rfl, names, rfl⟩)
    · exact .cell listed counts
    · exact .prefixed listed names
    · exact .register names
  · rintro (⟨listed, counts⟩ | ⟨listed, names⟩ | names)
    · exact Or.inl ⟨_, listed, _, _, rfl, counts, rfl⟩
    · exact Or.inr (Or.inl ⟨_, listed, _, _, rfl, names, rfl⟩)
    · exact Or.inr (Or.inr ⟨_, _, rfl, names, rfl⟩)

/-- A keyword of a table, or a sentence of another language. -/
def Tabled (table : List (String × Shown)) (language : List String → Shown → Prop)
    (sentence : List String) (shown : Shown) : Prop :=
  (∃ key, sentence = [key] ∧ (key, shown) ∈ table) ∨ language sentence shown

theorem led_tabled_nil {rule : Rule Shown} {language : List String → Shown → Prop}
    {leads : List String} (led : rule.Led language leads) : rule.Led (Tabled [] language) leads :=
  led.congr fun _ _ => (or_iff_right fun ⟨_, _, listed⟩ => nomatch listed).symm

/-- Other sentences in front of a table. -/
theorem led_orElse_tabled {rule second : Rule Shown} {leads more : List String}
    {table : List (String × Shown)} {language others : List String → Shown → Prop}
    (led : rule.Led language leads)
    (follow : second.Led (Tabled table others) (more ++ registerWords))
    (beside : ∀ lead ∈ leads, lead ∈ besideRegisters)
    (clear : Clear leads more) :
    (rule <|> second).Led
      (Tabled table fun sentence shown => language sentence shown ∨ others sentence shown)
      ((leads ++ more) ++ registerWords) := by
  rw [List.append_assoc]
  exact (led.orElse follow (clear_append_registerWords beside clear)).congr fun _ _ => or_left_comm

/-- One more keyword in front of a table. -/
theorem led_tabled {keyword : Rule Unit} {second : Rule Shown} {keys more : List String}
    {table : List (String × Shown)} {language : List String → Shown → Prop}
    (lexical : keyword.Lexical fun word _ => word ∈ keys) (shown : Shown)
    (follow : second.Led (Tabled table language) (more ++ registerWords))
    (beside : ∀ key ∈ keys, key ∈ besideRegisters)
    (clear : Clear keys more) :
    ((keyword >>= fun _ => pure shown) <|> second).Led
      (Tabled (keys.map (·, shown) ++ table) language) ((keys ++ more) ++ registerWords) := by
  have both := (led_keyword lexical shown).orElse follow (clear_append_registerWords beside clear)
  rw [List.append_assoc]
  refine both.congr fun sentence result => ?_
  simp only [Tabled, List.mem_append, List.mem_map, Prod.mk.injEq]
  constructor
  · rintro (⟨key, listed, rfl, rfl⟩ | ⟨key, rfl, listed⟩ | spoken)
    · exact Or.inl ⟨key, rfl, Or.inl ⟨key, listed, rfl, rfl⟩⟩
    · exact Or.inl ⟨key, rfl, Or.inr listed⟩
    · exact Or.inr spoken
  · rintro (⟨key, rfl, ⟨_, listed, rfl, rfl⟩ | listed⟩ | spoken)
    · exact Or.inl ⟨_, listed, rfl, rfl⟩
    · exact Or.inr (Or.inl ⟨key, rfl, listed⟩)
    · exact Or.inr (Or.inr spoken)

theorem led_shown : shownRule.Led ShownSentence (["registers", "regs", "rob", "pipeline", "memory",
    "mem", "predictor", "trace", "break", "bp", "stat", "cycle", "stall", "watchings", "watch"] ++
    registerWords) := by
  -- from the last alternative to the first
  have register := led_tabled_nil (led_register Shown.register)
  have watchings := led_tabled (lexical_spelled "watchings" "watch" (by decide)) .watchings
    register (by decide) (by decide)
  have stalls := led_tabled (lexical_keyword "stall" (by decide)) .stalls watchings
    (by decide) (by decide)
  have cycle := led_tabled (lexical_keyword "cycle" (by decide)) .cycle stalls
    (by decide) (by decide)
  have statistics := led_tabled (lexical_keyword "stat" (by decide)) .statistics cycle
    (by decide) (by decide)
  have breakpoints := led_tabled (lexical_spelled "break" "bp" (by decide)) .breakpoints
    statistics (by decide) (by decide)
  have trace := led_tabled (lexical_keyword "trace" (by decide)) .lastTrace breakpoints
    (by decide) (by decide)
  have predictor := led_tabled (lexical_keyword "predictor" (by decide)) .predictor trace
    (by decide) (by decide)
  have cells := lexical_address.maybe lexical_count.speaks nofun nofun
    fun start length => Shown.memory start (length.getD 1)
  have memory := led_orElse_tabled
    (led_then (lexical_spelled "memory" "mem" (by decide)) cells (by simp)) predictor
    (by decide) (by decide)
  have pipeline := led_tabled (lexical_keyword "pipeline" (by decide)) .pipeline memory
    (by decide) (by decide)
  have reorder := led_tabled (lexical_keyword "rob" (by decide)) .reorder pipeline
    (by decide) (by decide)
  have registers := led_tabled (lexical_spelled "registers" "regs" (by decide)) .registers
    reorder (by decide) (by decide)
  refine registers.congr fun sentence shown => ?_
  constructor
  · rintro (⟨key, rfl, listed⟩ | ⟨key, listed, _, rfl, spoken⟩ | ⟨word, ref, rfl, names, rfl⟩)
    · exact .keyword listed
    · rcases spoken with ⟨word, ⟨start⟩, rfl, counts, rfl⟩ |
        ⟨word, ⟨start⟩, _, length, rfl, counts, ⟨size, rfl, sized⟩, rfl⟩
      · exact .cell listed counts
      · exact .cells listed counts sized
    · exact .register names
  · rintro (listed | ⟨listed, counts⟩ | ⟨listed, counts, sized⟩ | names)
    · exact Or.inl ⟨_, rfl, listed⟩
    · exact Or.inr (Or.inl ⟨_, listed, _, rfl, Or.inl ⟨_, _, rfl, counts, rfl⟩⟩)
    · exact Or.inr (Or.inl ⟨_, listed, _, rfl,
        Or.inr ⟨_, _, _, _, rfl, counts, ⟨_, rfl, sized⟩, rfl⟩⟩)
    · exact Or.inr (Or.inr ⟨_, _, rfl, names, rfl⟩)

/-- The keyword that begins to watch something, or stops it. -/
def watchKeyword (begins : Bool) : String := if begins then "watch" else "unwatch"

theorem lexical_watchKeyword :
    ((do literal "watch"; return true) <|> (do literal "unwatch"; return false) :
      Rule Bool).Lexical fun word begins => word = watchKeyword begins := by
  have watch := (lexical_literal (by decide : IsWord "watch")).map fun _ => true
  have unwatch := (lexical_literal (by decide : IsWord "unwatch")).map fun _ => false
  refine (watch.orElse unwatch ?_).congr fun word begins => ?_
  · rintro _ _ ⟨_, rfl, -⟩ ⟨_, _, ⟨_, rfl, -⟩, front⟩
    exact absurd front (by decide)
  · cases begins <;> simp [watchKeyword]

theorem led_watch : watchRule.Led
    (fun sentence command => ∃ begins others watched, sentence = watchKeyword begins :: others ∧
      WatchedSentence others watched ∧
        command = if begins = true then .watch watched else .unwatch watched)
    ["watch", "unwatch"] := by
  have listed (begins : Bool) : watchKeyword begins ∈ ["watch", "unwatch"] := by
    cases begins <;> decide
  have all := lexical_watchKeyword.gap (fun begins => led_watched.speaks.map fun watched =>
    if begins = true then Command.watch watched else .unwatch watched)
    (by rintro _ _ ⟨_, ⟨⟩, _⟩)
  refine ⟨all.congr (fun sentence command => ?_) ?_, ?_⟩
  · constructor
    · rintro ⟨_, begins, others, rfl, rfl, watched, spoken, rfl⟩
      exact ⟨begins, others, watched, rfl, spoken, rfl⟩
    · rintro ⟨begins, others, watched, rfl, spoken, rfl⟩
      exact ⟨_, begins, others, rfl, rfl, watched, spoken, rfl⟩
  · rintro _ avoids _ begins others rfl rfl
    exact absurd (listed begins) avoids.not_mem
  · rintro _ command ⟨begins, others, watched, rfl, -⟩
    exact ⟨_, listed begins, rfl⟩

/-- The two rules about tracing, in front of others. -/
theorem led_trace {second : Rule Command} {others : List String → Command → Prop}
    {leads : List String} (follow : second.Led others leads)
    (clear : Clear ["trace"] leads) :
    ((do literal "trace"; gap; literal "off"; return .trace false) <|>
      (do
        literal "trace"
        let _ ← optional (do gap; literal "on")
        return .trace true) <|> second).Led
      (fun sentence command =>
        (∃ enabled, TraceSentence sentence enabled ∧ command = .trace enabled) ∨
          others sentence command)
      ("trace" :: leads) := by
  have trace := lexical_keyword "trace" (by decide)
  have off := (lexical_literal (by decide : IsWord "off")).speaks.map fun _ => Command.trace false
  have on := led_maybe trace (lexical_literal (by decide : IsWord "on")).speaks nofun nofun
    fun _ => Command.trace true
  have both := led_then_orElse trace off (by rintro _ ⟨_, ⟨_, ⟨⟩, _⟩, _⟩)
    (on.orElse follow clear) ?_
  · refine (both.widen ?_).congr fun sentence command => ?_
    · intro word listed
      exact (List.mem_append.mp listed).elim (List.mem_append_left leads) id
    · simp only [List.mem_singleton, exists_eq_left]
      constructor
      · rintro (⟨_, rfl, _, ⟨_, rfl, rfl⟩, rfl⟩ |
          (⟨rfl, rfl⟩ | ⟨_, _, rfl, ⟨_, rfl, rfl⟩, rfl⟩) | spoken)
        · exact Or.inl ⟨_, .off, rfl⟩
        · exact Or.inl ⟨_, .plain, rfl⟩
        · exact Or.inl ⟨_, .on, rfl⟩
        · exact Or.inr spoken
      · rintro (⟨_, _ | _ | _, rfl⟩ | spoken)
        · exact Or.inl ⟨_, rfl, (), ⟨_, rfl, rfl⟩, rfl⟩
        · exact Or.inr (Or.inl (Or.inl ⟨rfl, rfl⟩))
        · exact Or.inr (Or.inl (Or.inr ⟨_, (), rfl, ⟨_, rfl, rfl⟩, rfl⟩))
        · exact Or.inr (Or.inr spoken)
  · intro key listed rest command spoken first leading
    rintro ⟨_, _, rfl, front⟩
    rcases spoken with (⟨_, _, ⟨⟩, _⟩ | ⟨_, _, _, _, ⟨⟩, ⟨word, rfl, rfl⟩, -⟩) | spoken
    · cases leading
    · cases leading
      exact absurd front (by decide)
    · exact absurd List.prefix_rfl (clear key (follow.mem_of_cons spoken) key listed)

/-- The two rules about breakpoints, in front of others. -/
theorem led_breakpoint {second : Rule Command} {others : List String → Command → Prop}
    {leads : List String} (follow : second.Led others leads)
    (clear : Clear ["break", "bp"] leads) :
    ((do
        spelled "break" "bp"; gap; spelled "rm" "remove"; gap
        return .removeBreakpoint (← count)) <|>
      (do spelled "break" "bp"; gap; return .addBreakpoint (← conditionRule)) <|> second).Led
      (fun sentence command => BreakpointSentence sentence command ∨ others sentence command)
      ("break" :: "bp" :: leads) := by
  have breaks := lexical_spelled "break" "bp" (by decide)
  have removes := led_word (lexical_spelled "rm" "remove" (by decide)) lexical_count
    Command.removeBreakpoint
  have adds := led_then breaks (led_condition.speaks.map Command.addBreakpoint)
    (by rintro _ ⟨_, ⟨⟩, _⟩)
  have both := led_then_orElse breaks removes.speaks (by rintro _ ⟨_, _, _, _, ⟨⟩, _⟩)
    (adds.orElse follow clear) ?_
  · refine (both.widen ?_).congr fun sentence command => ?_
    · intro word listed
      exact (List.mem_append.mp listed).elim (List.mem_append_left leads) id
    · constructor
      · rintro (⟨key, listed, _, rfl, verb, removes, word, id, rfl, counts, rfl⟩ |
          ⟨key, listed, rest, rfl, condition, spoken, rfl⟩ | spoken)
        · exact Or.inl (.remove listed removes counts)
        · exact Or.inl (.add listed spoken)
        · exact Or.inr spoken
      · rintro ((⟨listed, removes, counts⟩ | ⟨listed, spoken⟩) | spoken)
        · exact Or.inl ⟨_, listed, _, rfl, _, removes, _, _, rfl, counts, rfl⟩
        · exact Or.inr (Or.inl ⟨_, listed, _, rfl, _, spoken, rfl⟩)
        · exact Or.inr (Or.inr spoken)
  · rintro key listed rest command (⟨_, _, _, ⟨⟩, condition, spoken, -⟩ | spoken)
    · exact led_condition.avoids spoken (by decide)
    · exact absurd List.prefix_rfl (clear key (follow.mem_of_cons spoken) key listed)

theorem led_static :
    staticRule.Led StaticSentence ["trace", "break", "bp", "watch", "unwatch", "show"] := by
  have display := led_then (lexical_keyword "show" (by decide))
    (led_shown.speaks.map Command.display) (by rintro _ ⟨_, ⟨⟩, _⟩)
  have watches := led_watch.orElse display (by decide)
  have all := led_trace (led_breakpoint watches (by decide)) (by decide)
  refine all.congr fun sentence command => ?_
  simp only [List.mem_singleton, exists_eq_left]
  constructor
  · rintro (⟨enabled, spoken, rfl⟩ | spoken | ⟨begins, others, watched, rfl, spoken, rfl⟩ |
      ⟨others, rfl, shown, spoken, rfl⟩)
    · exact .trace spoken
    · exact .breakpoint spoken
    · cases begins
      · exact .unwatch spoken
      · exact .watch spoken
    · exact .display spoken
  · rintro (spoken | spoken | spoken | spoken | spoken)
    · exact Or.inl ⟨_, spoken, rfl⟩
    · exact Or.inr (Or.inl spoken)
    · exact Or.inr (Or.inr (Or.inl ⟨true, _, _, rfl, spoken, rfl⟩))
    · exact Or.inr (Or.inr (Or.inl ⟨false, _, _, rfl, spoken, rfl⟩))
    · exact Or.inr (Or.inr (Or.inr ⟨_, rfl, _, spoken, rfl⟩))

/-! ## Commands and lines -/

theorem speaks_dynamic : dynamicRule.Speaks
    (fun sentence command => (∃ chosen, ModeSentence sentence chosen ∧ command = .mode chosen) ∨
      sentence = [] ∧ command = .again) fun _ => False := by
  have plays : dynamicRule.Plays _ := led_mode.speaks.plays.maybe.bind fun found =>
    (by cases found <;> exact plays_pure _ :
      Plays _ fun input => some (found.elim Command.again Command.mode, input))
  refine ⟨plays.steady, ?_, fun _ impossible => impossible.elim⟩
  intro input command solid
  rw [plays.plain_eq]
  constructor
  · rintro ⟨rest, reads, none⟩
    cases mode : modeRule.plain input with
    | none =>
      simp only [mode, Option.map_none, Option.none_or, Option.bind_some] at reads
      cases reads
      exact Or.inr ⟨none, rfl⟩
    | some result =>
      simp only [mode, Option.map_some, Option.some_or, Option.bind_some] at reads
      cases reads
      exact Or.inl ⟨_, (led_mode.speaks.completes solid).mp ⟨_, mode, none⟩, rfl⟩
  · rintro (⟨chosen, spoken, rfl⟩ | ⟨none, rfl⟩)
    · rcases (led_mode.speaks.completes solid).mpr spoken with ⟨rest, mode, none⟩
      refine ⟨rest, ?_, none⟩
      simp only [mode, Option.map_some, Option.some_or, Option.bind_some, Option.elim_some]
    · have refused : modeRule.plain input = .none := by
        refine led_mode.speaks.refuses solid ?_
        rw [none]
        exact nofun
      refine ⟨input, ?_, none⟩
      simp only [refused, Option.map_none, Option.none_or, Option.bind_some, Option.elim_none]

/-- The three kinds of commands, without the blanks around them. -/
def bare : Rule Command := staticRule <|> (literal "exit" >>= fun _ => pure .exit) <|> dynamicRule

theorem speaks_bare : bare.Speaks Sentence fun _ => False := by
  have exits := led_keyword (lexical_keyword "exit" (by decide)) Command.exit
  have behind := exits.speaks.orElse speaks_dynamic ?_
  · refine (led_static.speaks.orElse behind ?_).congr (fun sentence command => ?_) nofun
    · rintro sentence command (spoken | ⟨chosen, spoken, -⟩ | ⟨rfl, -⟩)
      · exact exits.avoids spoken (by decide)
      · exact led_mode.avoids spoken (by decide)
      · exact nofun
    · simp only [List.mem_singleton, exists_eq_left]
      constructor
      · rintro (spoken | ⟨rfl, rfl⟩ | ⟨chosen, spoken, rfl⟩ | ⟨rfl, rfl⟩)
        · exact .static spoken
        · exact .exit
        · exact .mode spoken
        · exact .again
      · rintro (_ | _ | spoken | spoken)
        · exact Or.inr (Or.inr (Or.inr ⟨rfl, rfl⟩))
        · exact Or.inr (Or.inl ⟨rfl, rfl⟩)
        · exact Or.inr (Or.inr (Or.inl ⟨_, spoken, rfl⟩))
        · exact Or.inl spoken
  · rintro sentence command (⟨chosen, spoken, -⟩ | ⟨rfl, -⟩)
    · exact led_mode.avoids spoken (by decide)
    · exact nofun

theorem plays_rule : rule.Plays fun input =>
    (bare.plain (input.dropWhile Text.isAsciiBlank)).map fun (command, rest) =>
      (command, rest.dropWhile Text.isAsciiBlank) := by
  have exits := (plays_literal "exit").steady
  have ends := exits.bind fun _ => plays_pure Command.exit
  have three := (plays_padded led_static.speaks.plays id).orElse
    ((plays_padded exits fun _ => Command.exit).orElse (plays_padded speaks_dynamic.plays id))
  have inner := led_static.speaks.plays.orElse (ends.orElse speaks_dynamic.plays)
  have same : bare.plain = _ := inner.plain_eq
  intro cursor missed
  refine (three cursor missed).trans ?_
  simp only [same, Option.map_or]
  cases (literal "exit").plain (cursor.rest.dropWhile Text.isAsciiBlank) <;> rfl

theorem read_eq_ok_iff (line : String) (command : Command) :
    read line = .ok command ↔ Sentence (Text.words Text.isAsciiBlank line) command := by
  have solid := Text.solid_dropWhile Text.isAsciiBlank line.toList
  have behind : words (line.toList.dropWhile Text.isAsciiBlank) =
    Text.words Text.isAsciiBlank line := Text.wordsOf_dropWhile _ _
  rw [read, parse_eq_ok_iff plays_rule, ← behind, ← speaks_bare.completes solid]
  simp only [words_eq_nil_iff, Option.map_eq_some_iff, Prod.mk.injEq, Prod.exists]
  constructor
  · rintro ⟨_, rest, reads, rfl, ends⟩
    exact ⟨rest, reads, ends⟩
  · rintro ⟨rest, reads, ends⟩
    exact ⟨command, rest, reads, rfl, ends⟩

/-- A line is a command if and only if its words form a sentence, and the command is the
one that the sentence stands for; how the words are spaced does not matter.  A step
without a number is a single cycle. -/
theorem reads_sentences :
    (∀ line command,
      read line = .ok command ↔ Sentence (Text.words Text.isAsciiBlank line) command) ∧
    (∀ line other, Text.words Text.isAsciiBlank line = Text.words Text.isAsciiBlank other →
      ∀ command, read line = .ok command ↔ read other = .ok command) ∧
    Simulator.Goal.ofMode (.steps none) = Simulator.Goal.ofMode (.steps (some 1)) := by
  refine ⟨read_eq_ok_iff, ?_, rfl⟩
  intro line other same command
  rw [read_eq_ok_iff, read_eq_ok_iff, same]

theorem reads_sentences_spaced :
    Text.words Text.isAsciiBlank "show  mem\t0xC 4 \n" =
      Text.words Text.isAsciiBlank "show mem 0xC 4" ∧
    (read "show  mem\t0xC 4 \n" = .ok (.display (.memory ⟨12⟩ 4)) ↔
      read "show mem 0xC 4" = .ok (.display (.memory ⟨12⟩ 4))) ∧
    read "show mem 0xC 4" = .ok (.display (.memory ⟨12⟩ 4)) := by
  have same : Text.words Text.isAsciiBlank "show  mem\t0xC 4 \n" =
    Text.words Text.isAsciiBlank "show mem 0xC 4" := by decide +kernel
  refine ⟨same, reads_sentences.2.1 _ _ same _, (reads_sentences.1 _ _).mpr ?_⟩
  have split : Text.words Text.isAsciiBlank "show mem 0xC 4" = ["show", "mem", "0xC", "4"] := by
    decide +kernel
  rw [split]
  have start : CountsEither "0xC" 12 :=
    Or.inl ⟨'x', ['C'], rfl, Or.inl rfl, ⟨[12], by decide, rfl, rfl⟩, by decide⟩
  have length : Counts "4" 4 := ⟨⟨[4], by decide, rfl, rfl⟩, by decide⟩
  exact .static (.display (.cells (by decide) start length))

end Command
end BranchPipeline
