import BranchPipeline.Debugger.Command
import BranchPipeline.Proofs.Pipeline.Accounting
import BranchPipeline.Proofs.Simulation.Following

namespace BranchPipeline

/-!
# What looks add to the counts of accesses

A debugger looks at a register or at a memory cell through the counted path.  A
register is counted whatever part of it is shown, a cell only if memory has it,
and then by the section in which it lies.  `Besides` says that counts hold what
a program has done and nothing but the given looks besides; the order of the
looks is lost in them.
-/

/-! ## Kinds of looks -/

namespace Watched

/-- A look at this register. -/
def isAt (register : Register) : Watched → Bool
  | .register ref => ref.register == register
  | .cell _ => false

/-- A look at a cell of memory that lies in the text section, or outside it. -/
def isIn (size : Nat) (range : Section) (inText : Bool) : Watched → Bool
  | .register _ => false
  | .cell address => address.index < size && range.contains address.index == inText

end Watched

/-- Lists of looks that leave the same counts. -/
structure AsOften (size : Nat) (range : Section) (looks others : List Watched) : Prop where
  registers (register : Register) :
    looks.countP (·.isAt register) = others.countP (·.isAt register)
  cells (inText : Bool) :
    looks.countP (·.isIn size range inText) = others.countP (·.isIn size range inText)

/-! ## Counts -/

/-- Every place of a table of registers is that of a register. -/
theorem Register.ext_counts {first second : Vector Nat Register.count}
    (same : ∀ register : Register, first.get register.index = second.get register.index) :
    first = second := by
  have listed : ∀ place : Fin count, ∃ register ∈ all, register.index = place := by decide
  ext place bound
  rcases listed ⟨place, bound⟩ with ⟨register, -, found⟩
  have alike := same register
  rw [found] at alike
  exact alike

namespace AccessTally

/-- The counts are a program's own and, besides, those of the looks. -/
structure Besides (size : Nat) (range : Section) (looks : List Watched)
    (own counts : AccessTally) : Prop where
  reads (register : Register) : counts.registers.reads.get register.index =
    own.registers.reads.get register.index + looks.countP (·.isAt register)
  writes : counts.registers.writes = own.registers.writes
  textReads : counts.memory.textReads =
    own.memory.textReads + looks.countP (·.isIn size range true)
  textWrites : counts.memory.textWrites = own.memory.textWrites
  dataReads : counts.memory.dataReads =
    own.memory.dataReads + looks.countP (·.isIn size range false)
  dataWrites : counts.memory.dataWrites = own.memory.dataWrites

variable {size : Nat} {range : Section} {looks others : List Watched}
  {own counts instead : AccessTally}

theorem reads_registerRead (tally : AccessTally) (register other : Register) :
    (tally.registerRead register).registers.reads.get other.index =
      tally.registers.reads.get other.index + if register = other then 1 else 0 := by
  refine (get_increment tally.registers.reads register.index other.index).trans ?_
  by_cases same : register = other
  · rw [if_pos same, decide_eq_true (congrArg Register.index same)]
    rfl
  · rw [if_neg same, decide_eq_false fun alike => same (Register.index_injective alike)]
    rfl

/-- What the program does later is counted behind the looks as it would be
without them. -/
theorem steady_besides : Steady (Besides size range looks) where
  registerRead _ _ register before :=
    { before with
      reads := fun other => by
        rw [reads_registerRead, reads_registerRead, before.reads, Nat.add_right_comm] }
  registerWritten _ _ register before :=
    { before with writes := congrArg (increment · register.index) before.writes }
  cellRead first second inText before := by
    cases inText with
    | true =>
      refine { before with textReads := ?_ }
      exact (congrArg (· + 1) before.textReads).trans (Nat.add_right_comm ..)
    | false =>
      refine { before with dataReads := ?_ }
      exact (congrArg (· + 1) before.dataReads).trans (Nat.add_right_comm ..)
  cellWritten first second inText before := by
    cases inText with
    | true => exact { before with textWrites := congrArg (· + 1) before.textWrites }
    | false => exact { before with dataWrites := congrArg (· + 1) before.dataWrites }

theorem Besides.nil (own : AccessTally) : Besides size range [] own own :=
  ⟨fun _ => rfl, rfl, rfl, rfl, rfl, rfl⟩

theorem Besides.append (first : Besides size range looks own counts)
    (second : Besides size range others counts instead) :
    Besides size range (looks ++ others) own instead where
  reads register := by rw [second.reads, first.reads, List.countP_append, Nat.add_assoc]
  writes := second.writes.trans first.writes
  textReads := by rw [second.textReads, first.textReads, List.countP_append, Nat.add_assoc]
  textWrites := second.textWrites.trans first.textWrites
  dataReads := by rw [second.dataReads, first.dataReads, List.countP_append, Nat.add_assoc]
  dataWrites := second.dataWrites.trans first.dataWrites

theorem besides_register (ref : RegisterRef) (own : AccessTally) :
    Besides size range [.register ref] own (own.registerRead ref.register) where
  reads register := by
    rw [reads_registerRead, List.countP_singleton, Watched.isAt]
    simp only [beq_iff_eq]
  writes := rfl
  textReads := rfl
  textWrites := rfl
  dataReads := rfl
  dataWrites := rfl

theorem besides_cell {address : Address} (inside : address.index < size) (own : AccessTally) :
    Besides size range [.cell address] own (own.cellRead (range.contains address.index)) := by
  have counted (inText : Bool) : [Watched.cell address].countP (·.isIn size range inText) =
      if range.contains address.index = inText then 1 else 0 := by
    rw [List.countP_singleton, Watched.isIn, decide_eq_true inside, Bool.true_and]
    simp only [beq_iff_eq]
  cases lies : range.contains address.index with
  | true =>
    rw [lies] at counted
    exact ⟨fun _ => rfl, rfl, by rw [counted]; rfl, rfl, by rw [counted]; rfl, rfl⟩
  | false =>
    rw [lies] at counted
    exact ⟨fun _ => rfl, rfl, by rw [counted]; rfl, rfl, by rw [counted]; rfl, rfl⟩

/-- A cell that memory does not have is not counted. -/
theorem besides_no_cell {address : Address} (outside : ¬ address.index < size)
    (own : AccessTally) : Besides size range [.cell address] own own := by
  have uncounted (inText : Bool) :
      [Watched.cell address].countP (·.isIn size range inText) = 0 := by
    rw [List.countP_singleton, Watched.isIn, decide_eq_false outside, Bool.false_and]
    rfl
  exact ⟨fun _ => rfl, rfl, by rw [uncounted]; rfl, rfl, by rw [uncounted]; rfl, rfl⟩

/-- Counts with the same accesses of a program differ by the looks alone. -/
theorem Besides.eq_iff (first : Besides size range looks own counts)
    (second : Besides size range others own instead) :
    counts = instead ↔ AsOften size range looks others := by
  constructor
  · rintro rfl
    refine ⟨fun register => ?_, ?_⟩
    · exact Nat.add_left_cancel ((first.reads register).symm.trans (second.reads register))
    · rintro (_ | _)
      · exact Nat.add_left_cancel (first.dataReads.symm.trans second.dataReads)
      · exact Nat.add_left_cancel (first.textReads.symm.trans second.textReads)
  · intro often
    have reads : counts.registers.reads = instead.registers.reads :=
      Register.ext_counts fun register => by
        rw [first.reads, second.reads, often.registers]
    have textReads : counts.memory.textReads = instead.memory.textReads := by
      rw [first.textReads, second.textReads, often.cells]
    have dataReads : counts.memory.dataReads = instead.memory.dataReads := by
      rw [first.dataReads, second.dataReads, often.cells]
    have writes := first.writes.trans second.writes.symm
    have textWrites := first.textWrites.trans second.textWrites.symm
    have dataWrites := first.dataWrites.trans second.dataWrites.symm
    rcases counts with ⟨⟨_, _⟩, ⟨_, _, _, _⟩⟩
    rcases instead with ⟨⟨_, _⟩, ⟨_, _, _, _⟩⟩
    simp only at reads writes textReads textWrites dataReads dataWrites
    rw [reads, writes, textReads, textWrites, dataReads, dataWrites]

end AccessTally

/-! ## Simulators -/

open Attempt AccessTally

variable {size : Nat} {range : Section} {earlier later : List Watched}

theorem Processor.Tied.append {first second third : Processor}
    (one : first.Tied (Besides size range earlier) size range second)
    (two : second.Tied (Besides size range later) size range third) :
    first.Tied (Besides size range (earlier ++ later)) size range third where
  same := one.same.trans two.same
  machine :=
    { toUntouched := one.machine.toUntouched.trans two.machine.toUntouched
      accesses := one.machine.accesses.append two.machine.accesses
      size := one.machine.size
      textSection := one.machine.textSection }

/-- The looks with which a run comes to a stop, registers first. -/
def Watchings.looks (watchings : Watchings) : List Watched :=
  watchings.registers.map .register ++ watchings.addresses.map .cell

/-- The looks of a run; when the program exits there are none. -/
def RunEnd.looks (watchings : Watchings) : RunEnd → List Watched
  | .exited => []
  | .stopped _ _ => watchings.looks

theorem Machine.perform_readCell (machine : Machine) (address : Address) :
    (readCell address).perform machine =
      match machine.memory.get address with
      | .ok cell => (.ok cell, { machine with
          accesses := machine.accesses.cellRead
            (machine.memory.textSection.contains address.index) })
      | .error fault => (.error (.memory fault), machine) := by
  simp only [readCell, perform_bind, perform_get, perform_ofExcept]
  cases machine.memory.get address <;> rfl

theorem Memory.get_eq_ok_iff {memory : Memory} {address : Address} :
    (∃ cell, memory.get address = .ok cell) ↔ address.index < memory.size := by
  rw [Memory.get, Memory.size]
  by_cases inside : address.index < memory.cells.size
  · rw [Array.getElem?_eq_getElem inside]
    exact ⟨fun _ => inside, fun _ => ⟨_, rfl⟩⟩
  · rw [Array.getElem?_eq_none (Nat.not_lt.mp inside)]
    constructor
    · rintro ⟨cell, ⟨⟩⟩
    · exact fun within => absurd within inside

namespace Simulator

variable {before middle after simulator : Simulator} {start : Processor}

/-- Memory has so many cells, and its text section lies there. -/
structure Shaped (size : Nat) (range : Section) (simulator : Simulator) : Prop where
  size : simulator.processor.machine.memory.size = size
  textSection : simulator.processor.machine.memory.textSection = range

/-- The simulator has been looked at in these places. -/
structure Looks (size : Nat) (range : Section) (looks : List Watched)
    (before after : Simulator) : Prop where
  same : before.SameButAccesses after
  tied : before.processor.Tied (Besides size range looks) size range after.processor

theorem Shaped.of_tied {related : AccessTally → AccessTally → Prop} {processor : Processor}
    (tied : processor.Tied related size range simulator.processor) :
    simulator.Shaped size range where
  size := (congrArg Memory.size tied.machine.memory).trans tied.machine.size
  textSection := (congrArg Memory.textSection tied.machine.memory).trans tied.machine.textSection

theorem Looks.nil (shaped : simulator.Shaped size range) :
    Looks size range [] simulator simulator where
  same := .refl simulator
  tied := ⟨.refl _, .refl _, .nil _, shaped.size, shaped.textSection⟩

theorem Looks.append (one : Looks size range earlier before middle)
    (two : Looks size range later middle after) :
    Looks size range (earlier ++ later) before after :=
  ⟨one.same.trans two.same, one.tied.append two.tied⟩

theorem looks_readRegister (shaped : simulator.Shaped size range) (ref : RegisterRef) :
    Looks size range [.register ref] simulator (simulator.readRegister ref).2 where
  same := sameButAccesses_readRegister simulator ref
  tied := ⟨⟨_, rfl⟩, ⟨rfl, rfl, rfl⟩, besides_register ref _, shaped.size, shaped.textSection⟩

theorem looks_readCell (shaped : simulator.Shaped size range) (address : Address) :
    Looks size range [.cell address] simulator (simulator.readCell address).2 := by
  have same := sameButAccesses_readCell simulator address
  rw [Simulator.readCell, Machine.perform_readCell] at same ⊢
  cases found : simulator.processor.machine.memory.get address with
  | ok cell =>
    rw [found] at same
    have inside : address.index < size :=
      shaped.size ▸ Memory.get_eq_ok_iff.mp ⟨cell, found⟩
    refine ⟨same, same.lookedAt.processor, ⟨rfl, rfl, rfl⟩, ?_, shaped.size, shaped.textSection⟩
    rw [← shaped.textSection]
    exact besides_cell inside simulator.processor.machine.accesses
  | error fault =>
    rw [found] at same
    have outside : ¬ address.index < size := by
      rw [← shaped.size, ← Memory.get_eq_ok_iff]
      rintro ⟨cell, present⟩
      cases found.symm.trans present
    exact ⟨same, same.lookedAt.processor, ⟨rfl, rfl, rfl⟩, besides_no_cell outside _, shaped.size,
      shaped.textSection⟩

/-- One look after the other. -/
theorem looks_foldl {α β : Type} {kind : α → Watched} {look : β × Simulator → α → β × Simulator}
    (each : ∀ (seen : β × Simulator) item, seen.2.Shaped size range →
      Looks size range [kind item] seen.2 (look seen item).2)
    (items : List α) (seen : β × Simulator) (shaped : seen.2.Shaped size range) :
    Looks size range (items.map kind) seen.2 (items.foldl look seen).2 := by
  induction items generalizing seen with
  | nil => exact .nil shaped
  | cons item items inductionHypothesis =>
    have one := each seen item shaped
    exact one.append (inductionHypothesis (look seen item) (.of_tied one.tied))

theorem looks_gather (shaped : simulator.Shaped size range) (watchings : Watchings) :
    Looks size range watchings.looks simulator (simulator.gather watchings).2 := by
  rw [Watchings.looks]
  change Looks size range _ simulator (List.foldl _ ([], (List.foldl _ ([], simulator)
    watchings.registers).2) watchings.addresses).2
  have first : Looks size range (watchings.registers.map .register) simulator
      (watchings.registers.foldl (fun (seen : List (RegisterRef × Except RegisterFault UInt64) ×
        Simulator) ref => (seen.1 ++ [(ref, (seen.2.readRegister ref).1)],
          (seen.2.readRegister ref).2)) ([], simulator)).2 := by
    refine looks_foldl ?_ watchings.registers ([], simulator) shaped
    exact fun seen ref shaped => looks_readRegister shaped ref
  refine first.append (looks_foldl ?_ watchings.addresses ([], _) (.of_tied first.tied))
  exact fun seen address shaped => looks_readCell shaped address

/-! ## Runs -/

/-- The counts that a program makes by itself in so many cycles and, if there was
a fault, in the failing cycle behind them. -/
inductive Makes (start : Processor) (cycle : Nat) : Option Fault → AccessTally → Prop
  | sound {traces : List CycleTrace} {reached : Processor}
      (ran : start.runCycles cycle = .ok (traces, reached)) :
      Makes start cycle none reached.machine.accesses
  | broken {fault : Fault} {traces : List CycleTrace} {reached failed : Processor}
      (ran : start.runCycles cycle = .ok (traces, reached))
      (fails : reached.runCycle = (.error fault, failed)) :
      Makes start cycle (some fault) failed.machine.accesses

/-- The counts of the simulator are those that as many cycles make without a
debugger, with the failing cycle behind them if there was one, and besides
those of the looks. -/
abbrev Accounted (size : Nat) (range : Section) (looks : List Watched) (start : Processor)
    (simulator : Simulator) : Prop :=
  Tracks (Processor.Tied (Besides size range looks) size range) start simulator

theorem lockStep_tied : LockStep (Processor.Tied (Besides size range earlier) size range) :=
  ⟨fun _ _ tied => tied.same, fun _ _ tied => tied.runCycle steady_besides⟩

theorem Accounted.shaped (accounted : Accounted size range earlier start simulator) :
    simulator.Shaped size range := by
  cases accounted with
  | sound failure ran tied => exact .of_tied tied
  | broken failure ran fails tied => exact .of_tied tied

theorem Makes.unique {cycle : Nat} {failure : Option Fault} {own other : AccessTally}
    (one : Makes start cycle failure own) (two : Makes start cycle failure other) :
    own = other := by
  cases one with
  | sound ran =>
    cases two with
    | sound repeated =>
      cases ran.symm.trans repeated
      rfl
  | broken ran fails =>
    cases two with
    | broken repeated failsToo =>
      cases ran.symm.trans repeated
      cases fails.symm.trans failsToo
      rfl

theorem Accounted.exists_makes (accounted : Accounted size range earlier start simulator) :
    ∃ own, Makes start simulator.cycle simulator.failure own ∧
      Besides size range earlier own simulator.processor.machine.accesses := by
  cases accounted with
  | sound failure ran tied =>
    rw [failure]
    exact ⟨_, .sound ran, tied.machine.accesses⟩
  | broken failure ran fails tied =>
    rw [failure]
    exact ⟨_, .broken ran fails, tied.machine.accesses⟩

theorem Accounted.look (accounted : Accounted size range earlier start before)
    (looks : Looks size range later before after) :
    Accounted size range (earlier ++ later) start after := by
  have cycle : after.cycle = before.cycle := looks.tied.same.cycle_eq
  cases accounted with
  | sound failure ran tied =>
    rw [← cycle] at ran
    exact .sound (looks.same.failure_eq.trans failure) ran (tied.append looks.tied)
  | broken failure ran fails tied =>
    rw [← cycle] at ran
    exact .broken (looks.same.failure_eq.trans failure) ran fails (tied.append looks.tied)

theorem accounted_of_stop {options : Options} {reason : StopReason} {ending : RunEnd}
    (accounted : Accounted size range earlier start before)
    (stops : before.stop options reason = (ending, after)) :
    Accounted size range (earlier ++ ending.looks options.watchings) start after := by
  cases stops
  exact accounted.look (looks_gather accounted.shaped options.watchings)

section

variable {configuration : Configuration} {kind : PredictorKind} {executable : Executable}
  {output : Output} {β : Type} {options : Options} {observe : Observer β} {budget : Nat}
  {goal : Goal} {seen shown : β} {ending : RunEnd}

theorem Accounted.next {result : Except Fault (CycleTrace × Flow)}
    (accounted : Accounted size range earlier start before)
    (loaded : Processor.Loaded configuration kind executable output start)
    (sound : before.failure = none) (advances : before.advance = (result, after)) :
    Accounted size range earlier start after :=
  Tracks.next lockStep_tied loaded accounted sound (advances_of_advance advances)

/-- Between its cycles a run looks once at what is watched, when it stops. -/
theorem accounted_of_pursue
    (loaded : Processor.Loaded configuration kind executable output start)
    (accounted : Accounted size range earlier start simulator) (sound : simulator.failure = none)
    (ran : pursue options observe budget goal simulator seen = some (ending, after, shown)) :
    Accounted size range (earlier ++ ending.looks options.watchings) start after := by
  fun_induction pursue options observe budget goal simulator seen with
  | case1 budget goal simulator seen reason met ended stopped stops =>
    cases ran
    exact accounted_of_stop accounted stops
  | case2 goal simulator seen unmet => cases ran
  | case3 goal simulator seen unmet budget fault middle advances ended stopped stops =>
    cases ran
    exact accounted_of_stop (accounted.next loaded sound advances) stops
  | case4 goal simulator seen unmet budget trace middle noted advances =>
    clear_value noted
    cases ran
    rw [RunEnd.looks, List.append_nil]
    exact accounted.next loaded sound advances
  | case5 goal simulator seen unmet budget trace middle noted breakpoint hit ended stopped stops
      advances =>
    clear_value noted
    cases ran
    exact accounted_of_stop (accounted.next loaded sound advances) stops
  | case6 goal simulator seen unmet budget trace middle noted unhit advances
      inductionHypothesis =>
    exact inductionHypothesis (accounted.next loaded sound advances)
      ((failure_of_advance advances).trans sound) ran

theorem accounted_of_run
    (loaded : Processor.Loaded configuration kind executable output start)
    (accounted : Accounted size range earlier start simulator)
    (ran : run options observe budget simulator seen = some (ending, after, shown)) :
    Accounted size range (earlier ++ ending.looks options.watchings) start after := by
  unfold run at ran
  cases failure : simulator.failure with
  | some fault =>
    simp only [failure] at ran
    cases stops : simulator.stop options .cannotRestart with
    | mk ended stopped =>
      rw [stops] at ran
      cases ran
      exact accounted_of_stop accounted stops
  | none =>
    simp only [failure] at ran
    exact accounted_of_pursue loaded accounted failure ran

end

end Simulator

end BranchPipeline
