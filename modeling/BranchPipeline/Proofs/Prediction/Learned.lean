import BranchPipeline.Proofs.Buffer.Learned
import BranchPipeline.Proofs.Prediction.Trained

namespace BranchPipeline

open Attempt

/-!
# What the table schemes predict

The schemes with tables but without a history of directions can be described
without their tables.  A table knows the sources that came first, as many as it
has slots; for each of them it says something about the outcomes of this source
alone.  So the outcomes of one branch matter to another only in that the two may
compete for a slot, and a prediction depends on the outcomes of its own source
and on two facts: whether the source is known to the one table, and whether it
is known to the other.
-/

/-- How a branch has turned out. -/
structure Outcome where
  source : UInt64
  destination : UInt64
  taken : Bool
  deriving DecidableEq

/-- The outcomes of one source. -/
def outcomesOf (source : UInt64) (history : List Outcome) : List Outcome :=
  history.filter fun outcome => outcome.source == source

theorem outcomesOf_append_self (outcome : Outcome) (history : List Outcome) :
    outcomesOf outcome.source (history ++ [outcome]) =
      outcomesOf outcome.source history ++ [outcome] := by
  rw [outcomesOf, List.filter_append, outcomesOf]
  congr 1
  exact List.filter_cons_of_pos BEq.rfl

theorem outcomesOf_append_of_ne {outcome : Outcome} {source : UInt64} (history : List Outcome)
    (other : source ≠ outcome.source) :
    outcomesOf source (history ++ [outcome]) = outcomesOf source history := by
  rw [outcomesOf, List.filter_append, outcomesOf]
  refine (congrArg _ (List.filter_cons_of_neg ?_)).trans (List.append_nil _)
  exact fun same => other (beq_iff_eq.mp same).symm

theorem outcomesOf_eq_nil {source : UInt64} {history : List Outcome}
    (untold : source ∉ history.map Outcome.source) : outcomesOf source history = [] := by
  rw [outcomesOf, List.filter_eq_nil_iff]
  intro outcome happened same
  exact untold (List.mem_map.mpr ⟨outcome, happened, beq_iff_eq.mp same⟩)

theorem outcomesOf_ne_nil {source : UInt64} {history : List Outcome}
    (told : source ∈ history.map Outcome.source) : outcomesOf source history ≠ [] := by
  rcases List.mem_map.mp told with ⟨outcome, happened, same⟩
  exact List.ne_nil_of_mem (List.mem_filter.mpr ⟨happened, beq_iff_eq.mpr same⟩)

/-! ## The counter as a number -/

/-- One level up or down, within zero and three. -/
def moved (level : Nat) (taken : Bool) : Nat :=
  if taken then min (level + 1) 3 else level - 1

/-- The level after some directions, the first of which has set it. -/
def levelAfter : List Bool → Option Nat
  | [] => none
  | first :: later => some (later.foldl moved (if first then 2 else 1))

theorem SaturatingCounter.level_seeded (taken : Bool) :
    (seeded taken).level = if taken then 2 else 1 := by
  cases taken <;> rfl

theorem SaturatingCounter.level_record (counter : SaturatingCounter) (taken : Bool) :
    (counter.record taken).level = moved counter.level taken := by
  cases counter <;> cases taken <;> rfl

/-- The counter after some directions, the first of which has set it. -/
def SaturatingCounter.after : List Bool → Option SaturatingCounter
  | [] => none
  | first :: later => some (later.foldl record (seeded first))

theorem SaturatingCounter.level_after (directions : List Bool) :
    (after directions).map level = levelAfter directions := by
  have follows : ∀ (later : List Bool) (counter : SaturatingCounter),
      (later.foldl record counter).level = later.foldl moved counter.level := by
    intro later
    induction later with
    | nil => exact fun _ => rfl
    | cons taken later inductionHypothesis =>
      intro counter
      rw [List.foldl_cons, List.foldl_cons, inductionHypothesis, level_record]
  cases directions with
  | nil => rfl
  | cons first later =>
    rw [after, levelAfter, Option.map_some, follows, level_seeded]

/-- One more direction sets the counter or moves it. -/
theorem SaturatingCounter.after_append (directions : List Bool) (taken : Bool) :
    after (directions ++ [taken]) =
      some (((after directions).map fun counter => counter.record taken).getD (seeded taken)) := by
  cases directions with
  | nil => rfl
  | cons first later =>
    rw [List.cons_append, after, after, List.foldl_append]
    rfl

/-! ## What is said of a source -/

/-- The prediction that a scheme with tables makes for a source with these
outcomes.  An unknown target means going straight on, and an unknown direction
counts as taken.  The history predictor is not described here. -/
def forecast (kind : PredictorKind) (targetKnown directionKnown : Bool) (own : List Outcome)
    (source : UInt64) : UInt64 :=
  match kind with
  | .alwaysNotTaken | .gshare => source + 1
  | .alwaysTaken =>
    match own.head? with
    | some first => if targetKnown then first.destination else source + 1
    | none => source + 1
  | .oneBit =>
    match own.getLast? with
    | some last =>
      if targetKnown && (!directionKnown || last.taken) then last.destination else source + 1
    | none => source + 1
  | .twoBit =>
    match own.getLast? with
    | some last =>
      if targetKnown && (!directionKnown || (levelAfter (own.map Outcome.taken)).any (2 ≤ ·)) then
        last.destination
      else source + 1
    | none => source + 1

/-! ## What the tables say of it -/

def firstTarget (history : List Outcome) (source : UInt64) : Option TargetEntry :=
  (outcomesOf source history).head?.map fun outcome => ⟨source, outcome.destination⟩

def lastTarget (history : List Outcome) (source : UInt64) : Option TargetEntry :=
  (outcomesOf source history).getLast?.map fun outcome => ⟨source, outcome.destination⟩

def lastDirection (history : List Outcome) (source : UInt64) : Option (DirectionEntry Bool) :=
  (outcomesOf source history).getLast?.map fun outcome => ⟨source, outcome.taken⟩

def counterOf (history : List Outcome) (source : UInt64) :
    Option (DirectionEntry SaturatingCounter) :=
  (SaturatingCounter.after ((outcomesOf source history).map Outcome.taken)).map fun counter =>
    ⟨source, counter⟩

namespace Strategy

/-- The tables of the scheme have been taught these outcomes. -/
def Learned (configuration : Configuration) (history : List Outcome) : Strategy → Prop
  | alwaysNotTaken => True
  | alwaysTaken targets =>
    targets.Learned configuration.targetCapacity (history.map Outcome.source)
      (firstTarget history)
  | oneBit targets directions =>
    targets.Learned configuration.targetCapacity (history.map Outcome.source)
      (lastTarget history) ∧
    directions.Learned configuration.directionCapacity (history.map Outcome.source)
      (lastDirection history)
  | twoBit targets directions =>
    targets.Learned configuration.targetCapacity (history.map Outcome.source)
      (lastTarget history) ∧
    directions.Learned configuration.directionCapacity (history.map Outcome.source)
      (counterOf history)
  | gshare _ => False

variable {configuration : Configuration} {history : List Outcome}

theorem exists_learned {kind : PredictorKind} (tables : kind ≠ .gshare)
    (targetSlots : 0 < configuration.targetCapacity)
    (directionSlots : 0 < configuration.directionCapacity) :
    ∃ strategy, create configuration kind = .ok strategy ∧ strategy.kind = kind ∧
      strategy.Learned configuration [] := by
  cases kind with
  | alwaysNotTaken => exact ⟨_, rfl, rfl, trivial⟩
  | alwaysTaken =>
    rcases ProbeTable.exists_create _ targetSlots with ⟨targets, targetsMade⟩
    exact ⟨_, bind_eq_ok_iff.mpr ⟨targets, targetsMade, rfl⟩, rfl,
      ProbeTable.learned_of_create targetsMade _⟩
  | oneBit | twoBit =>
    rcases ProbeTable.exists_create _ targetSlots with ⟨targets, targetsMade⟩
    rcases ProbeTable.exists_create _ directionSlots with ⟨directions, directionsMade⟩
    exact ⟨_, bind_eq_ok_iff.mpr ⟨targets, targetsMade,
      bind_eq_ok_iff.mpr ⟨directions, directionsMade, rfl⟩⟩, rfl,
      ProbeTable.learned_of_create targetsMade _, ProbeTable.learned_of_create directionsMade _⟩
  | gshare => exact absurd rfl tables

/-! ## Outcomes -/

section

variable {capacity : Nat} {targets : TargetTable} {outcome : Outcome}

theorem learned_first (learned : targets.Learned capacity (history.map Outcome.source)
      (firstTarget history)) (unknown : targets.contains outcome.source = false) :
    ProbeTable.Learned (targets.learn ⟨outcome.source, outcome.destination⟩) capacity
      ((history ++ [outcome]).map Outcome.source) (firstTarget (history ++ [outcome])) := by
  rw [List.map_append, List.map_singleton]
  refine learned.learn rfl (fun first => ?_) fun other apart => ?_
  · have absent : outcome.source ∉ firstKeys capacity (history.map Outcome.source) := by
      rw [← learned.contains_iff, unknown]
      exact Bool.false_ne_true
    have untold := not_mem_of_mem_firstKeys_append first absent
    rw [firstTarget, outcomesOf_append_self, outcomesOf_eq_nil untold]
    rfl
  · rw [firstTarget, outcomesOf_append_of_ne history apart, firstTarget]

theorem learned_again (learned : targets.Learned capacity (history.map Outcome.source)
      (firstTarget history)) (known : targets.contains outcome.source = true) :
    targets.Learned capacity ((history ++ [outcome]).map Outcome.source)
      (firstTarget (history ++ [outcome])) := by
  rw [List.map_append, List.map_singleton]
  refine learned.again ((learned.contains_iff _).mp known) fun other first => ?_
  rw [firstTarget, firstTarget]
  by_cases same : other = outcome.source
  · subst same
    have told := outcomesOf_ne_nil (mem_of_mem_firstKeys first)
    rw [outcomesOf_append_self, List.head?_append,
      Option.or_eq_left_of_isSome (List.isSome_head?.mpr told)]
  · rw [outcomesOf_append_of_ne history same]

theorem learned_last (learned : targets.Learned capacity (history.map Outcome.source)
      (lastTarget history)) :
    ProbeTable.Learned (targets.learn ⟨outcome.source, outcome.destination⟩) capacity
      ((history ++ [outcome]).map Outcome.source) (lastTarget (history ++ [outcome])) := by
  rw [List.map_append, List.map_singleton]
  refine learned.learn rfl (fun _ => ?_) fun other apart => ?_
  · rw [lastTarget, outcomesOf_append_self, List.getLast?_concat]
    rfl
  · rw [lastTarget, outcomesOf_append_of_ne history apart, lastTarget]

theorem learned_lastDirection {directions : DirectionTable Bool}
    (learned : directions.Learned capacity (history.map Outcome.source)
      (lastDirection history)) :
    ProbeTable.Learned (directions.learn ⟨outcome.source, outcome.taken⟩) capacity
      ((history ++ [outcome]).map Outcome.source) (lastDirection (history ++ [outcome])) := by
  rw [List.map_append, List.map_singleton]
  refine learned.learn rfl (fun _ => ?_) fun other apart => ?_
  · rw [lastDirection, outcomesOf_append_self, List.getLast?_concat]
    rfl
  · rw [lastDirection, outcomesOf_append_of_ne history apart, lastDirection]

/-- A counter is moved from where the outcomes of its source have left it. -/
theorem learned_counter {directions : DirectionTable SaturatingCounter}
    (learned : directions.Learned capacity (history.map Outcome.source) (counterOf history)) :
    ProbeTable.Learned (directions.learn ⟨outcome.source,
        match directions.get? outcome.source with
        | some entry => entry.certainty.record outcome.taken
        | none => SaturatingCounter.seeded outcome.taken⟩) capacity
      ((history ++ [outcome]).map Outcome.source) (counterOf (history ++ [outcome])) := by
  rw [List.map_append, List.map_singleton]
  refine learned.learn rfl (fun first => ?_) fun other apart => ?_
  · have told := learned.get?_of_first first fun untold => by
      rw [counterOf, outcomesOf_eq_nil untold]
      rfl
    rw [told, counterOf, counterOf, outcomesOf_append_self, List.map_append, List.map_singleton,
      SaturatingCounter.after_append]
    cases SaturatingCounter.after ((outcomesOf outcome.source history).map Outcome.taken) <;> rfl
  · rw [counterOf, outcomesOf_append_of_ne history apart, counterOf]

end

variable {before : Strategy}

/-- An outcome is taken in without fail and then belongs to the history. -/
theorem Learned.exists_update (learned : before.Learned configuration history)
    (outcome : Outcome) : ∃ after,
      (update outcome.source outcome.destination outcome.taken).Yields before () after ∧
      after.kind = before.kind ∧ after.Learned configuration (history ++ [outcome]) := by
  cases before with
  | alwaysNotTaken => exact ⟨alwaysNotTaken, rfl, rfl, trivial⟩
  | alwaysTaken targets =>
    cases known : targets.contains outcome.source with
    | true =>
      refine ⟨alwaysTaken targets, ?_, rfl, learned_again learned known⟩
      exact yields_bind.mpr ⟨_, _, yields_get.mpr ⟨rfl, rfl⟩, by simp [known]⟩
    | false =>
      refine ⟨alwaysTaken (targets.learn ⟨outcome.source, outcome.destination⟩), ?_, rfl,
        learned_first learned known⟩
      exact yields_bind.mpr ⟨_, _, yields_get.mpr ⟨rfl, rfl⟩, by simp [known]⟩
  | oneBit targets directions =>
    exact ⟨_, rfl, rfl, learned_last learned.1, learned_lastDirection learned.2⟩
  | twoBit targets directions =>
    exact ⟨_, rfl, rfl, learned_last learned.1, learned_counter learned.2⟩
  | gshare state => exact learned.elim

/-! ## Predictions -/

/-- Whether a table with so many slots knows a source. -/
def knows (capacity : Nat) (history : List Outcome) (source : UInt64) : Bool :=
  decide (source ∈ firstKeys capacity (history.map Outcome.source))

/-- Going to the last target of a known source if the direction says so. -/
theorem follow_lastTarget {targets : TargetTable} {capacity : Nat}
    (learned : targets.Learned capacity (history.map Outcome.source) (lastTarget history))
    (taken : Bool) (source : UInt64) :
    follow targets taken source =
      match (outcomesOf source history).getLast? with
      | some last =>
        if knows capacity history source && taken then last.destination else source + 1
      | none => source + 1 := by
  rw [follow, learned.get?_eq, lastTarget, knows]
  by_cases first : source ∈ firstKeys capacity (history.map Outcome.source)
  · rw [if_pos first, decide_eq_true first, Bool.true_and]
    cases (outcomesOf source history).getLast? <;> rfl
  · rw [if_neg first, decide_eq_false first, Bool.false_and]
    cases (outcomesOf source history).getLast? <;> rfl

theorem follow_firstTarget {targets : TargetTable} {capacity : Nat}
    (learned : targets.Learned capacity (history.map Outcome.source) (firstTarget history))
    (source : UInt64) :
    follow targets true source =
      match (outcomesOf source history).head? with
      | some first => if knows capacity history source then first.destination else source + 1
      | none => source + 1 := by
  rw [follow, learned.get?_eq, firstTarget, knows]
  by_cases first : source ∈ firstKeys capacity (history.map Outcome.source)
  · rw [if_pos first, decide_eq_true first]
    cases (outcomesOf source history).head? <;> rfl
  · rw [if_neg first, decide_eq_false first]
    cases (outcomesOf source history).head? <;> rfl

theorem Learned.yields_predict (learned : before.Learned configuration history)
    (source : UInt64) :
    (predict source).Yields before
      (forecast before.kind (knows configuration.targetCapacity history source)
        (knows configuration.directionCapacity history source) (outcomesOf source history) source)
      before := by
  cases before with
  | alwaysNotTaken => rfl
  | alwaysTaken targets =>
    refine yields_bind.mpr ⟨_, _, yields_get.mpr ⟨rfl, rfl⟩, yields_pure.mpr ⟨?_, rfl⟩⟩
    exact (follow_firstTarget learned source).symm
  | oneBit targets directions =>
    refine yields_bind.mpr ⟨_, _, yields_get.mpr ⟨rfl, rfl⟩, yields_pure.mpr ⟨?_, rfl⟩⟩
    rw [follow_lastTarget learned.1, learned.2.get?_eq, lastDirection, kind, forecast]
    cases (outcomesOf source history).getLast? with
    | none => rfl
    | some last =>
      by_cases first : source ∈ firstKeys configuration.directionCapacity
          (history.map Outcome.source) <;> simp [knows, first]
  | twoBit targets directions =>
    refine yields_bind.mpr ⟨_, _, yields_get.mpr ⟨rfl, rfl⟩, yields_pure.mpr ⟨?_, rfl⟩⟩
    rw [follow_lastTarget learned.1, learned.2.get?_eq, counterOf, kind, forecast,
      ← SaturatingCounter.level_after]
    cases outcomesOf source history with
    | nil => rfl
    | cons first later =>
      by_cases known : source ∈ firstKeys configuration.directionCapacity
          (history.map Outcome.source) <;>
        simp [knows, known, SaturatingCounter.after, SaturatingCounter.predictsTaken]
  | gshare state => exact learned.elim

theorem Learned.yields_squash (learned : before.Learned configuration history) :
    squash.Yields before () before := by
  cases before with
  | alwaysNotTaken | alwaysTaken targets | oneBit targets directions
  | twoBit targets directions => rfl
  | gshare state => exact learned.elim

end Strategy

/-! ## Calls of a predictor -/

namespace Predictor

/-- One call with its arguments. -/
inductive Call where
  | predict (source : UInt64)
  | update (outcome : Outcome)
  | stall

namespace Call

/-- Makes the call; the address that a prediction gives is not looked at. -/
def run : Call → Attempt Predictor BufferFault Unit
  | predict source => do
    let _ ← Predictor.predict source
    return
  | update outcome => Predictor.update outcome.source outcome.destination outcome.taken
  | stall => Predictor.stall

def outcome? : Call → Option Outcome
  | update outcome => some outcome
  | predict _ | stall => none

/-- Whether a prediction has been made since the last stall, if `earlier` says
so of what came before this call. -/
def awake (earlier : Bool) : Call → Bool
  | predict _ => true
  | update _ => earlier
  | stall => false

end Call

/-- What a predictor has been taught, and whether it is past its first
prediction after a stall. -/
structure Informed (predictor : Predictor) (configuration : Configuration)
    (kind : PredictorKind) (history : List Outcome) (awake : Bool) : Prop where
  kind_eq : predictor.strategy.kind = kind
  learned : predictor.strategy.Learned configuration history
  stalled_eq : predictor.stalled = !awake

variable {configuration : Configuration} {kind : PredictorKind} {history : List Outcome}
  {awake : Bool} {before : Predictor}

theorem exists_informed (tables : kind ≠ .gshare) (targetSlots : 0 < configuration.targetCapacity)
    (directionSlots : 0 < configuration.directionCapacity) :
    ∃ start, create kind configuration = .ok start ∧
      start.Informed configuration kind [] false := by
  rcases Strategy.exists_learned tables targetSlots directionSlots with
      ⟨strategy, made, sameKind, learned⟩
  exact ⟨⟨true, strategy⟩, bind_eq_ok_iff.mpr ⟨strategy, made, rfl⟩, sameKind, learned, rfl⟩

/-- A prediction is the source itself behind a stall, and else what the
outcomes of the source let expect. -/
theorem Informed.yields_predict (informed : before.Informed configuration kind history awake)
    (source : UInt64) :
    (predict source).Yields before
      (if awake then
        forecast kind (Strategy.knows configuration.targetCapacity history source)
          (Strategy.knows configuration.directionCapacity history source)
          (outcomesOf source history) source
      else source)
      { before with stalled := false } := by
  have stalled := informed.stalled_eq
  cases awake with
  | false => exact Predictor.yields_predict.mpr (Or.inl ⟨stalled, rfl, rfl⟩)
  | true =>
    refine Predictor.yields_predict.mpr (Or.inr ⟨stalled, before.strategy, ?_, ?_⟩)
    · rw [if_pos rfl, ← informed.kind_eq]
      exact informed.learned.yields_predict source
    · rcases before with ⟨stalling, strategy⟩
      cases stalled
      rfl

theorem Informed.exists_run (informed : before.Informed configuration kind history awake)
    (call : Call) : ∃ after, call.run.Yields before () after ∧
      after.Informed configuration kind (history ++ call.outcome?.toList) (call.awake awake) := by
  cases call with
  | predict source =>
    refine ⟨_, yields_bind.mpr ⟨_, _, informed.yields_predict source, rfl⟩, informed.kind_eq, ?_,
      rfl⟩
    rw [Call.outcome?, Option.toList_none, List.append_nil]
    exact informed.learned
  | update outcome =>
    rcases informed.learned.exists_update outcome with ⟨strategy, updates, sameKind, learned⟩
    exact ⟨_, yields_update.mpr ⟨strategy, updates, rfl⟩, sameKind.trans informed.kind_eq,
      learned, informed.stalled_eq⟩
  | stall =>
    refine ⟨_, yields_stall.mpr ⟨_, informed.learned.yields_squash, rfl⟩, informed.kind_eq, ?_,
      rfl⟩
    rw [Call.outcome?, Option.toList_none, List.append_nil]
    exact informed.learned

theorem Informed.exists_runs (informed : before.Informed configuration kind history awake)
    (calls : List Call) : ∃ after, (calls.forM Call.run).Yields before () after ∧
      after.Informed configuration kind (history ++ calls.filterMap Call.outcome?)
        (calls.foldl Call.awake awake) := by
  induction calls generalizing before history awake with
  | nil => exact ⟨before, rfl, by rwa [List.filterMap_nil, List.append_nil]⟩
  | cons call calls inductionHypothesis =>
    rcases informed.exists_run call with ⟨middle, runs, follows⟩
    rcases inductionHypothesis follows with ⟨after, run, reached⟩
    refine ⟨after, ?_, ?_⟩
    · show (call.run >>= fun _ => calls.forM Call.run).Yields before () after
      exact yields_bind.mpr ⟨(), middle, runs, run⟩
    · have split : (call :: calls).filterMap Call.outcome? =
          call.outcome?.toList ++ calls.filterMap Call.outcome? := by
        cases call <;> rfl
      rwa [List.append_assoc, ← split] at reached

/-- What a predictor with tables says after any calls.  None of the calls
fails, and neither does the prediction.  It is the source itself when no
prediction has been made since the last stall; else it follows from the
outcomes of this source alone and from whether the source is among the first
sources, as many as the table of targets and that of directions have slots. -/
theorem predicts_learned (tables : kind ≠ .gshare)
    (targetSlots : 0 < configuration.targetCapacity)
    (directionSlots : 0 < configuration.directionCapacity) (calls : List Call) :
    ∃ start reached, create kind configuration = .ok start ∧
      (calls.forM Call.run).Yields start () reached ∧
      ∀ source, ∃ after,
        let history := calls.filterMap Call.outcome?
        let sources := (history.map Outcome.source).eraseDups
        (predict source).Yields reached
          (if calls.foldl Call.awake false then
            forecast kind (decide (source ∈ sources.take configuration.targetCapacity))
              (decide (source ∈ sources.take configuration.directionCapacity))
              (outcomesOf source history) source
          else source)
          after := by
  rcases exists_informed tables targetSlots directionSlots with ⟨start, made, informed⟩
  rcases informed.exists_runs calls with ⟨reached, runs, follows⟩
  exact ⟨start, reached, made, runs, fun source => ⟨_, follows.yields_predict source⟩⟩

/-- One slot for targets and two for directions: the second branch gets no
target, and the first is followed until its counter has come down. -/
theorem predicts_learned_crowded :
    let configuration : Configuration := { targetCapacity := 1, directionCapacity := 2 }
    let calls : List Call := [.predict 4, .update ⟨4, 9, true⟩, .update ⟨6, 2, true⟩,
      .update ⟨4, 8, true⟩, .update ⟨4, 8, false⟩]
    ∃ start reached, create .twoBit configuration = .ok start ∧
      (calls.forM Call.run).Yields start () reached ∧
      (∃ after, (predict 4).Yields reached 8 after) ∧
      (∃ after, (predict 6).Yields reached 7 after) := by
  intro configuration calls
  rcases @predicts_learned configuration .twoBit nofun (by decide) (by decide) calls with
    ⟨start, reached, made, runs, predicts⟩
  rcases predicts 4 with ⟨_, first⟩
  rcases predicts 6 with ⟨_, second⟩
  exact ⟨start, reached, made, runs, ⟨_, first⟩, ⟨_, second⟩⟩

end Predictor
end BranchPipeline
