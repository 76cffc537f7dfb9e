import BranchPipeline.Proofs.Pipeline.Run

namespace BranchPipeline

open Attempt

/-!
# Where the cycles go

A cycle of a running processor executes one micro-operation, except for the two
cycles at the start and the two behind every mispredicted branch, in which the
pipeline fills up.  A lack of room in the buffers holds up decode and fetch, but
never execution, because it only arises when there is something to execute.

The number of cycles that still have to pass before the next execution is a
function of the stock.  How a cycle changes this number is all that the account
rests on.
-/

/-- Whether a branch was mispredicted in the cycle. -/
def CycleTrace.mispredicts (trace : CycleTrace) : Bool := trace.branch.any (·.mispredicted)

/-- How many of the cycles executed a micro-operation. -/
def executions (traces : List CycleTrace) : Nat := traces.countP (·.executed.isSome)

/-- The cycles in which a branch was mispredicted. -/
def mispredictions (traces : List CycleTrace) : List Nat :=
  (traces.filter CycleTrace.mispredicts).map (·.cycle)

/-- How many cycles pass before the next execution. -/
def Stock.bubbles (stock : Stock) : Nat :=
  if stock.latch.isNone then 2 else if stock.packets.isEmpty then 1 else 0

namespace Processor

variable {before after : Processor} {stock reached : Stock} {fetched : Fetched}

/-! ## One cycle -/

/-- A supplied processor executes in the next cycle. -/
theorem Supplies.bubbles_eq {decoded : Option Decoded} {result : Option Fetched}
    (supplies : Supplies before stock fetched decoded result after reached)
    (carries : before.Carries stock) (latch : stock.latch = some fetched) :
    reached.bubbles = 0 := by
  cases supplies with
  | issued issues fetches => simp [Stock.bubbles]
  | deferred defers =>
    have many := defers.two_le carries
    have busy : stock.packets.isEmpty = false := by
      rw [List.isEmpty_eq_false_iff]
      intro none
      rw [Stock.waiting, none] at many
      simp at many
    simp [Stock.bubbles, latch, busy]

/-- What a cycle does to the account: it executes exactly if nothing had to
pass before, only then may it mispredict or end the program, and afterwards one
cycle less has to pass, or two behind a misprediction. -/
structure Accounts (before : Processor) (stock : Stock) (trace : CycleTrace) (after : Processor)
    (reached : Stock) : Prop where
  numbered : trace.cycle = before.cycle
  counted : after.cycle = before.cycle + 1
  executes : trace.executed.isSome = true ↔ stock.bubbles = 0
  mispredicted : after.record.mispredicted =
    if trace.mispredicts then before.record.mispredicted.push before.cycle
    else before.record.mispredicted
  early : stock.bubbles ≠ 0 → trace.mispredicts = false ∧ after.running = true
  remaining : after.running = true →
    reached.bubbles = if trace.mispredicts then 2 else stock.bubbles - 1
  ended : after.running = false → trace.mispredicts = false

theorem bubbles_of_packets {packet : Packet} {later : List Packet}
    (packets : stock.packets = packet :: later) (latch : stock.latch = some fetched) :
    stock.bubbles = 0 := by
  simp [Stock.bubbles, packets, latch]

section

variable {trace : CycleTrace}

theorem Accounts.of_idle (waits : stock.bubbles ≠ 0) (numbered : trace.cycle = before.cycle)
    (counted : after.cycle = before.cycle + 1) (executed : trace.executed = none)
    (branch : trace.branch = none)
    (record : after.record.mispredicted = before.record.mispredicted)
    (running : after.running = true) (remaining : reached.bubbles = stock.bubbles - 1) :
    Accounts before stock trace after reached := by
  have right : trace.mispredicts = false := by rw [CycleTrace.mispredicts, branch, Option.any_none]
  refine ⟨numbered, counted, ?_, ?_, ?_, ?_, ?_⟩
  · simp [executed, waits]
  · simpa [right] using record
  · intro _
    exact ⟨right, running⟩
  · intro _
    simpa [right] using remaining
  · intro _
    exact right

theorem Accounts.of_busy {op : MicroOp} (zero : stock.bubbles = 0)
    (numbered : trace.cycle = before.cycle) (counted : after.cycle = before.cycle + 1)
    (executed : trace.executed = some op)
    (mispredicted : after.record.mispredicted =
      if trace.mispredicts then before.record.mispredicted.push before.cycle
      else before.record.mispredicted)
    (remaining : after.running = true → reached.bubbles = if trace.mispredicts then 2 else 0)
    (ended : after.running = false → trace.mispredicts = false) :
    Accounts before stock trace after reached := by
  refine ⟨numbered, counted, ?_, mispredicted, ?_, ?_, ended⟩
  · simp [executed, zero]
  · intro waits
    exact absurd zero waits
  · intro still
    rw [zero]
    exact remaining still

theorem Turns.accounts (turns : Turns before stock trace after reached)
    (stocked : before.Stocked stock) (running : before.running = true) :
    Accounts before stock trace after reached := by
  cases turns with
  | refetched idle lost fetches =>
    have two : stock.bubbles = 2 := by simp [Stock.bubbles, lost]
    have waits : stock.bubbles ≠ 0 := by simp [two]
    refine .of_idle waits rfl (congrArg (· + 1) fetches.course.cycle) rfl rfl ?_ ?_ ?_
    · exact congrArg _ fetches.course.record
    · exact fetches.course.running.trans running
    · rw [two]
      rfl
  | refilled idle latch supplies =>
    have one : stock.bubbles = 1 := by simp [Stock.bubbles, idle, latch]
    have waits : stock.bubbles ≠ 0 := by simp [one]
    refine .of_idle waits rfl (congrArg (· + 1) supplies.course.cycle) rfl rfl ?_ ?_ ?_
    · exact congrArg _ supplies.course.record
    · exact supplies.course.running.trans running
    · rw [one]
      exact supplies.bubbles_eq stocked.toCarries latch
  | acted packets front latch plain acts supplies =>
    have zero := bubbles_of_packets packets latch
    have carries := acts.carries stocked.toCarries packets front
    have counted := supplies.course.cycle.trans acts.cycle
    refine .of_busy zero rfl (congrArg (· + 1) counted) rfl ?_ ?_ ?_
    · exact congrArg _ (supplies.course.record.trans acts.record)
    · intro _
      exact supplies.bubbles_eq carries latch
    · intro _
      rfl
  | confirmed packets front latch branches right confirms supplies =>
    have zero := bubbles_of_packets packets latch
    have carries := confirms.carries stocked.toCarries packets front
    have counted := supplies.course.cycle.trans confirms.cycle
    refine .of_busy zero rfl (congrArg (· + 1) counted) rfl ?_ ?_ ?_
    · have record := supplies.course.record.trans confirms.record
      exact (congrArg BranchRecord.mispredicted record :)
    · intro _
      exact supplies.bubbles_eq carries latch
    · intro _
      rfl
  | redirected packets front branches wrong redirects =>
    have filled : stock.packets ≠ [] := packets ▸ List.cons_ne_nil _ _
    rcases Option.ne_none_iff_exists'.mp (stocked.fed filled) with ⟨fetched, latch⟩
    have zero := bubbles_of_packets packets latch
    refine .of_busy zero rfl (congrArg (· + 1) redirects.cycle) rfl ?_ ?_ ?_
    · exact congrArg _ redirects.record
    · intro _
      rfl
    · intro stopped
      replace stopped := redirects.running.symm.trans stopped
      rw [running] at stopped
      cases stopped
  | exited packets front calls exits =>
    have filled : stock.packets ≠ [] := packets ▸ List.cons_ne_nil _ _
    rcases Option.ne_none_iff_exists'.mp (stocked.fed filled) with ⟨fetched, latch⟩
    have zero := bubbles_of_packets packets latch
    refine .of_busy zero rfl (congrArg (· + 1) exits.cycle) rfl ?_ ?_ ?_
    · exact congrArg _ exits.record
    · intro still
      replace still := exits.running.symm.trans still
      cases still
    · intro _
      rfl

end

/-! ## All cycles of a run -/

/-- The account after a run: every cycle has executed, or it was one of the two
at the start or one of the two behind a misprediction, as far as these have
passed already. -/
structure Balanced (processor : Processor) (traces : List CycleTrace) (bubbles : Nat) : Prop where
  total : processor.cycle + bubbles =
    executions traces + 2 * (1 + processor.record.mispredicted.size)
  listed : processor.record.mispredicted.toList = mispredictions traces

/-- The account while the program runs.  The number of cycles that still have
to pass can be read off the latest entries of the record. -/
structure Counted (processor : Processor) (stock : Stock) (traces : List CycleTrace) : Prop
    extends Balanced processor traces stock.bubbles where
  cycle : processor.cycle = traces.length
  past : ∀ missed ∈ processor.record.mispredicted, missed < processor.cycle
  two : stock.bubbles = 2 ↔
    processor.cycle = 0 ∨ ∃ missed ∈ processor.record.mispredicted, processor.cycle = missed + 1
  one : stock.bubbles = 1 ↔
    processor.cycle = 1 ∨ ∃ missed ∈ processor.record.mispredicted, processor.cycle = missed + 2

theorem bubbles_le (stock : Stock) : stock.bubbles ≤ 2 := by
  unfold Stock.bubbles
  split
  · exact Nat.le_refl 2
  · split
    · exact Nat.le_succ 1
    · exact Nat.zero_le 2

theorem executions_append (traces : List CycleTrace) (trace : CycleTrace) :
    executions (traces ++ [trace]) =
      executions traces + if trace.executed.isSome then 1 else 0 := by
  simp [executions, List.countP_append, List.countP_singleton]

theorem mispredictions_append (traces : List CycleTrace) (trace : CycleTrace) :
    mispredictions (traces ++ [trace]) =
      mispredictions traces ++ if trace.mispredicts then [trace.cycle] else [] := by
  cases missed : trace.mispredicts <;>
    simp [mispredictions, List.filter_append, missed]

/-- A branch is only mispredicted in a cycle that executes. -/
theorem Accounts.bubbles_of_mispredicts {trace : CycleTrace}
    (accounts : Accounts before stock trace after reached) (missed : trace.mispredicts = true) :
    stock.bubbles = 0 := by
  by_cases zero : stock.bubbles = 0
  · exact zero
  · have quiet := (accounts.early zero).1
    rw [missed] at quiet
    cases quiet

/-- One more cycle keeps the account balanced. -/
theorem Accounts.balanced {trace : CycleTrace} {traces : List CycleTrace} {bubbles : Nat}
    (accounts : Accounts before stock trace after reached)
    (counted : Balanced before traces stock.bubbles)
    (remaining : bubbles = if trace.mispredicts then 2 else stock.bubbles - 1) :
    Balanced after (traces ++ [trace]) bubbles := by
  have total := counted.total
  have few := bubbles_le stock
  constructor
  · rw [accounts.counted, accounts.mispredicted, executions_append, remaining]
    cases missed : trace.mispredicts with
    | true =>
      have zero := accounts.bubbles_of_mispredicts missed
      rw [if_pos (accounts.executes.mpr zero)]
      simp only [if_true, Array.size_push]
      omega
    | false =>
      by_cases zero : stock.bubbles = 0
      · rw [if_pos (accounts.executes.mpr zero)]
        simp only [Bool.false_eq_true, if_false]
        omega
      · rw [if_neg (mt accounts.executes.mp zero)]
        simp only [Bool.false_eq_true, if_false]
        omega
  · rw [accounts.mispredicted, mispredictions_append, ← counted.listed, accounts.numbered]
    cases trace.mispredicts <;> simp

theorem Accounts.counted_of_mispredicts {trace : CycleTrace} {traces : List CycleTrace}
    (accounts : Accounts before stock trace after reached) (counted : Counted before stock traces)
    (running : after.running = true) (missed : trace.mispredicts = true) :
    Counted after reached (traces ++ [trace]) := by
  have remaining := accounts.remaining running
  have balanced := accounts.balanced counted.toBalanced remaining
  have zero := accounts.bubbles_of_mispredicts missed
  have record := accounts.mispredicted
  rw [missed, if_pos rfl] at remaining record
  refine ⟨balanced, ?_, ?_, ?_, ?_⟩
  · rw [accounts.counted, counted.cycle, List.length_append, List.length_singleton]
  · intro missed member
    rw [record, Array.mem_push] at member
    rw [accounts.counted]
    rcases member with member | rfl
    · exact Nat.lt_succ_of_lt (counted.past missed member)
    · exact Nat.lt_succ_self _
  · rw [remaining, record, accounts.counted]
    constructor
    · intro _
      exact Or.inr ⟨before.cycle, Array.mem_push_self, rfl⟩
    · intro _
      rfl
  · rw [remaining, record, accounts.counted]
    constructor
    · intro impossible
      cases impossible
    · -- the cycle before would have had two more to pass
      intro recent
      have two : stock.bubbles = 2 := by
        apply counted.two.mpr
        rcases recent with first | ⟨missed, member, distance⟩
        · exact Or.inl (by omega)
        · rcases Array.mem_push.mp member with member | rfl
          · exact Or.inr ⟨missed, member, by omega⟩
          · omega
      rw [zero] at two
      cases two

theorem Accounts.counted_of_not_mispredicts {trace : CycleTrace} {traces : List CycleTrace}
    (accounts : Accounts before stock trace after reached) (counted : Counted before stock traces)
    (running : after.running = true) (missed : trace.mispredicts = false) :
    Counted after reached (traces ++ [trace]) := by
  have remaining := accounts.remaining running
  have balanced := accounts.balanced counted.toBalanced remaining
  have few := bubbles_le stock
  have record := accounts.mispredicted
  rw [missed, if_neg Bool.false_ne_true] at remaining record
  refine ⟨balanced, ?_, ?_, ?_, ?_⟩
  · rw [accounts.counted, counted.cycle, List.length_append, List.length_singleton]
  · intro missed member
    rw [record] at member
    rw [accounts.counted]
    exact Nat.lt_succ_of_lt (counted.past missed member)
  · rw [remaining, record, accounts.counted]
    constructor
    · intro impossible
      omega
    · rintro (impossible | ⟨missed, member, distance⟩)
      · omega
      · have earlier := counted.past missed member
        omega
  · have two := counted.two
    rw [remaining, record, accounts.counted]
    constructor
    · intro one
      rcases two.mp (by omega) with first | ⟨missed, member, distance⟩
      · exact Or.inl (by omega)
      · exact Or.inr ⟨missed, member, by omega⟩
    · rintro (first | ⟨missed, member, distance⟩)
      · rw [two.mpr (Or.inl (by omega))]
      · rw [two.mpr (Or.inr ⟨missed, member, by omega⟩)]

theorem Accounts.counted_next {trace : CycleTrace} {traces : List CycleTrace}
    (accounts : Accounts before stock trace after reached) (counted : Counted before stock traces)
    (running : after.running = true) : Counted after reached (traces ++ [trace]) := by
  cases missed : trace.mispredicts with
  | true => exact accounts.counted_of_mispredicts counted running missed
  | false => exact accounts.counted_of_not_mispredicts counted running missed

/-- What is known after a run: while the program runs the account is exact, and
when it has ended nothing is left to pass. -/
structure Accounted (processor : Processor) (traces : List CycleTrace) : Prop where
  running : processor.running = true → ∃ stock, processor.Stocked stock ∧
    Counted processor stock traces
  ended : processor.running = false → Balanced processor traces 0

theorem Loaded.accounted {configuration : Configuration} {kind : PredictorKind}
    {executable : Executable} {output : Output} {start : Processor}
    (loaded : Loaded configuration kind executable output start) : start.Accounted [] := by
  constructor
  · intro _
    refine ⟨_, loaded.stocked, ⟨?_, ?_⟩, loaded.cycle, ?_, ?_, ?_⟩
    · rw [loaded.cycle, loaded.record]
      rfl
    · rw [loaded.record]
      rfl
    · rw [loaded.record]
      intro missed member
      exact absurd member (Array.not_mem_empty missed)
    · rw [loaded.cycle]
      exact ⟨fun _ => Or.inl rfl, fun _ => rfl⟩
    · rw [loaded.cycle, loaded.record]
      constructor
      · intro impossible
        cases impossible
      · rintro (impossible | ⟨missed, member, -⟩)
        · cases impossible
        · exact absurd member (Array.not_mem_empty missed)
  · intro stopped
    rw [loaded.running] at stopped
    cases stopped

theorem Accounted.next {trace : CycleTrace} {flow : Flow} {traces : List CycleTrace}
    (accounted : before.Accounted traces) (ran : before.runCycle = (.ok (trace, flow), after)) :
    after.Accounted (traces ++ [trace]) := by
  cases running : before.running with
  | true =>
    rcases accounted.running running with ⟨stock, stocked, counted⟩
    rcases stocked.turns running ran with ⟨reached, turns⟩
    have accounts := turns.accounts stocked running
    constructor
    · intro still
      exact ⟨reached, turns.stocked stocked still, accounts.counted_next counted still⟩
    · intro stopped
      have zero : stock.bubbles = 0 := by
        by_cases zero : stock.bubbles = 0
        · exact zero
        · have still := (accounts.early zero).2
          rw [stopped] at still
          cases still
      apply accounts.balanced counted.toBalanced
      rw [accounts.ended stopped, zero]
      rfl
  | false =>
    rw [runCycle_of_stopped running] at ran
    cases ran
    constructor
    · intro still
      rw [running] at still
      cases still
    · intro _
      have balanced := accounted.ended running
      constructor
      · rw [executions_append]
        exact balanced.total
      · rw [mispredictions_append, ← balanced.listed]
        exact (List.append_nil _).symm

theorem Loaded.accounted_of_runCycles {configuration : Configuration} {kind : PredictorKind}
    {executable : Executable} {output : Output} {start : Processor} {count : Nat}
    {traces : List CycleTrace} (loaded : Loaded configuration kind executable output start)
    (ran : start.runCycles count = .ok (traces, after)) : after.Accounted traces := by
  induction count generalizing traces after with
  | zero =>
    cases ran
    exact loaded.accounted
  | succ count inductionHypothesis =>
    rcases runCycles_succ.mp ran with ⟨earlier, before, trace, flow, shorter, once, rfl⟩
    exact (inductionHypothesis shorter).next once

/-- When the next cycle executes, in terms of the record alone. -/
theorem Counted.bubbles_eq_zero_iff {traces : List CycleTrace} {count : Nat}
    (counted : Counted before stock traces) (cycle : before.cycle = count) :
    stock.bubbles = 0 ↔ ¬ (count < 2 ∨ count - 1 ∈ before.record.mispredicted ∨
      count - 2 ∈ before.record.mispredicted) := by
  have two := counted.two
  have one := counted.one
  rw [cycle] at two one
  constructor
  · intro zero recent
    have different : stock.bubbles = 2 ∨ stock.bubbles = 1 := by
      rcases recent with early | recent | recent
      · rcases Nat.lt_succ_iff_lt_or_eq.mp early with first | second
        · exact Or.inl (two.mpr (Or.inl (Nat.lt_one_iff.mp first)))
        · exact Or.inr (one.mpr (Or.inl second))
      · by_cases first : count = 0
        · exact Or.inl (two.mpr (Or.inl first))
        · exact Or.inl (two.mpr (Or.inr ⟨_, recent, by omega⟩))
      · by_cases first : count = 0
        · exact Or.inl (two.mpr (Or.inl first))
        · by_cases second : count = 1
          · exact Or.inr (one.mpr (Or.inl second))
          · exact Or.inr (one.mpr (Or.inr ⟨_, recent, by omega⟩))
    rw [zero] at different
    cases different <;> contradiction
  · intro late
    have notTwo : stock.bubbles ≠ 2 := by
      intro isTwo
      rcases two.mp isTwo with first | ⟨missed, member, rfl⟩
      · exact late (Or.inl (by omega))
      · exact late (Or.inr (Or.inl member))
    have notOne : stock.bubbles ≠ 1 := by
      intro isOne
      rcases one.mp isOne with second | ⟨missed, member, rfl⟩
      · exact late (Or.inl (by omega))
      · exact late (Or.inr (Or.inr member))
    have few := bubbles_le stock
    clear two one
    omega

/-- Exact cycle accounting.  After any run in which no cycle has failed, the
record lists the cycles in which a branch was mispredicted.  If the program
still runs, the next cycle, if it does not fail either, executes a
micro-operation, unless it is one of the first two or one of the two behind a
misprediction; then it executes none.  If the program has ended, the cycles are
the executions and two for the start and for every misprediction. -/
theorem cycles_accounted {configuration : Configuration} {kind : PredictorKind}
    {executable : Executable} {output : Output} {start reached : Processor} {count : Nat}
    {traces : List CycleTrace} (loads : load configuration kind executable output = .ok start)
    (ran : start.runCycles count = .ok (traces, reached)) :
    reached.record.mispredicted.toList = mispredictions traces ∧
    (reached.running = true → reached.cycle = count ∧
      ∀ trace flow after, reached.runCycle = (.ok (trace, flow), after) →
        trace.cycle = count ∧
        (trace.executed.isSome = true ↔ ¬ (count < 2 ∨
          count - 1 ∈ reached.record.mispredicted ∨ count - 2 ∈ reached.record.mispredicted))) ∧
    (reached.running = false →
      reached.cycle = executions traces + 2 * (1 + reached.record.mispredicted.size)) := by
  have accounted := (loaded_of_load loads).accounted_of_runCycles ran
  have length := length_of_runCycles ran
  cases running : reached.running with
  | true =>
    rcases accounted.running running with ⟨stock, stocked, counted⟩
    have cycle := counted.cycle.trans length
    refine ⟨counted.listed, ?_, ?_⟩
    · intro _
      refine ⟨cycle, ?_⟩
      intro trace flow after once
      rcases stocked.turns running once with ⟨next, turns⟩
      have accounts := turns.accounts stocked running
      refine ⟨accounts.numbered.trans cycle, ?_⟩
      rw [accounts.executes]
      exact counted.bubbles_eq_zero_iff cycle
    · intro stopped
      cases stopped
  | false =>
    have balanced := accounted.ended running
    refine ⟨balanced.listed, ?_, fun _ => balanced.total⟩
    intro still
    cases still

/-- A jump over one instruction to the end of the program: five
micro-operations, one branch that was predicted badly, and so nine cycles. -/
theorem cycles_accounted_jump :
    ∃ start traces reached,
      load { memorySize := 8 } .twoBit
          (.ofParts ["jmp 4", "noop", "mov rax 60", "syscall"] []) .accepting =
        .ok start ∧
      start.runCycles 9 = .ok (traces, reached) ∧ reached.running = false ∧
      reached.cycle = 9 := by
  have computed : (runLoaded { memorySize := 8 } .twoBit
      (.ofParts ["jmp 4", "noop", "mov rax 60", "syscall"] [])
      .accepting 9).toOption.any (fun ends =>
        decide (ends.2.running = false ∧ executions ends.1 = 5 ∧
          ends.2.record.mispredicted.size = 1)) = true := by
    decide +kernel
  rcases exists_of_runLoaded computed with ⟨start, traces, reached, loads, ran, ends⟩
  rcases of_decide_eq_true ends with ⟨stopped, executed, missed⟩
  have total := (cycles_accounted loads ran).2.2 stopped
  rw [executed, missed] at total
  exact ⟨start, traces, reached, loads, ran, stopped, total⟩

end Processor
end BranchPipeline
