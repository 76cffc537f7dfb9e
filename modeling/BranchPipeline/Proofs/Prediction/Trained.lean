import BranchPipeline.Prediction.Predictor
import BranchPipeline.Proofs.Buffer.Stored
import BranchPipeline.Proofs.Prediction.Confirmed

namespace BranchPipeline

open Attempt

/-!
# What every scheme keeps

The five schemes differ in how they guess, and the pipeline may not depend on
that.  It relies on this much: a scheme leaves the straight path only behind an
address that it has been taught, learning and squashing never fail, and the
queue of outstanding predictions only grows by an address that has been taught.

`Trained` is the invariant behind these facts.  It is relative to a set of
addresses, in which all taught addresses lie.
-/

namespace Strategy

/-- The target table of a scheme that has one. -/
def targets? : Strategy → Option TargetTable
  | alwaysNotTaken => none
  | alwaysTaken targets | oneBit targets _ | twoBit targets _ => some targets
  | gshare state => some state.targets

/-- The addresses of the outstanding predictions, the oldest first. -/
def outstanding : Strategy → List UInt64
  | gshare state => state.sources
  | _ => []

/-- A scheme of this kind that has only been taught addresses in `branches`; a
history is in order, and its queue has at least `room` places. -/
structure Trained (strategy : Strategy) (kind : PredictorKind) (branches : UInt64 → Prop)
    (room : Nat) : Prop where
  kind : strategy.kind = kind
  confined : ∀ targets, strategy.targets? = some targets →
    ∀ source, targets.Stores source → branches source
  recalls : ∀ state, strategy = .gshare state →
    room ≤ state.outstanding.capacity ∧ ∃ confirmed, state.Recalls confirmed

section

variable {kind : PredictorKind} {branches : UInt64 → Prop} {room : Nat} {before after : Strategy}

/-- A new scheme has been taught nothing and predicts nothing yet. -/
theorem trained_of_create {configuration : Configuration} {kind : PredictorKind}
    {strategy : Strategy} (made : create configuration kind = .ok strategy)
    (branches : UInt64 → Prop) :
    strategy.Trained kind branches configuration.outstandingCapacity ∧
      strategy.outstanding = [] := by
  have untaught {targets : TargetTable}
      (created : TargetTable.create configuration.targetCapacity = .ok targets) :
      ∀ source, targets.Stores source → branches source :=
    fun source stored => absurd stored (ProbeTable.not_stores_of_create created source)
  cases kind with
  | alwaysNotTaken =>
    cases made
    refine ⟨⟨rfl, ?_, ?_⟩, rfl⟩ <;>
    · intro other same
      cases same
  | alwaysTaken =>
    rcases bind_eq_ok_iff.mp made with ⟨targets, created, made⟩
    cases made
    refine ⟨⟨rfl, ?_, ?_⟩, rfl⟩ <;> intro other same <;> cases same
    exact untaught created
  | oneBit | twoBit =>
    rcases bind_eq_ok_iff.mp made with ⟨targets, created, made⟩
    rcases bind_eq_ok_iff.mp made with ⟨directions, -, made⟩
    cases made
    refine ⟨⟨rfl, ?_, ?_⟩, rfl⟩ <;> intro other same <;> cases same
    exact untaught created
  | gshare =>
    rcases bind_eq_ok_iff.mp made with ⟨state, created, made⟩
    cases made
    rcases Gshare.recalls_of_create created with ⟨recalls, -, slots, empty⟩
    refine ⟨⟨rfl, ?_, ?_⟩, List.map_eq_nil_iff.mpr empty⟩
    · intro other same
      cases same
      rcases bind_eq_ok_iff.mp created with ⟨history, -, created⟩
      rcases bind_eq_ok_iff.mp created with ⟨queue, -, created⟩
      rcases bind_eq_ok_iff.mp created with ⟨targets, targetsMade, created⟩
      rcases bind_eq_ok_iff.mp created with ⟨directions, -, created⟩
      cases created
      exact untaught targetsMade
    · intro other same
      cases same
      exact ⟨Nat.le_of_eq slots.symm, _, recalls⟩

/-- A scheme of any kind can be made if no size is zero. -/
theorem exists_create {configuration : Configuration}
    (positive : ∀ dimension, 0 < configuration.get dimension) (kind : PredictorKind) :
    ∃ strategy, create configuration kind = .ok strategy := by
  have targetCapacity : 0 < configuration.targetCapacity := positive .target
  have directionCapacity : 0 < configuration.directionCapacity := positive .direction
  cases kind with
  | alwaysNotTaken => exact ⟨_, rfl⟩
  | alwaysTaken =>
    rcases ProbeTable.exists_create _ targetCapacity with ⟨targets, targetsMade⟩
    exact ⟨_, bind_eq_ok_iff.mpr ⟨targets, targetsMade, rfl⟩⟩
  | oneBit | twoBit =>
    rcases ProbeTable.exists_create _ targetCapacity with ⟨targets, targetsMade⟩
    rcases ProbeTable.exists_create _ directionCapacity with ⟨directions, directionsMade⟩
    exact ⟨_, bind_eq_ok_iff.mpr ⟨targets, targetsMade,
      bind_eq_ok_iff.mpr ⟨directions, directionsMade, rfl⟩⟩⟩
  | gshare =>
    rcases History.exists_create (positive .history) with ⟨history, historyMade⟩
    rcases Ring.exists_create _ (positive .outstanding) with ⟨queue, queueMade⟩
    rcases ProbeTable.exists_create _ targetCapacity with ⟨targets, targetsMade⟩
    rcases ProbeTable.exists_create _ directionCapacity with ⟨directions, directionsMade⟩
    have made : Gshare.create configuration = .ok ⟨history, queue, targets, directions⟩ :=
      bind_eq_ok_iff.mpr ⟨history, historyMade, bind_eq_ok_iff.mpr ⟨queue, queueMade,
        bind_eq_ok_iff.mpr ⟨targets, targetsMade,
          bind_eq_ok_iff.mpr ⟨directions, directionsMade, rfl⟩⟩⟩⟩
    exact ⟨_, bind_eq_ok_iff.mpr ⟨_, made, rfl⟩⟩

/-- Behind an address that has not been taught, the straight path goes on. -/
theorem follow_of_not_branches {targets : TargetTable}
    (confined : ∀ source, targets.Stores source → branches source) (taken : Bool) {source : UInt64}
    (other : ¬ branches source) : follow targets taken source = source + 1 := by
  cases known : targets.get? source with
  | none => simp [follow, known]
  | some target =>
    have taught := ProbeTable.stores_of_get? (by rw [known]; exact Option.some_ne_none target)
    exact absurd (confined source taught) other

theorem yields_withGshare {α : Type} {state : Gshare} {operation : Attempt Gshare BufferFault α}
    {value : α} :
    (withGshare state operation).Yields before value after ↔
      ∃ changed, operation.Yields state value changed ∧ after = .gshare changed := by
  unfold withGshare
  cases performed : operation.perform state with
  | mk result changed =>
    cases result <;>
      simp [Yields, performed, perform_bind, perform_set, perform_ofExcept,
        and_assoc, eq_comm]

/-- A prediction keeps a scheme trained, leaves the straight path only behind
a taught address, and adds no other address to the queue. -/
theorem Trained.predict {source next : UInt64} (trained : before.Trained kind branches room)
    (predicts : (predict source).Yields before next after) :
    after.Trained kind branches room ∧ (¬ branches source → next = source + 1) ∧
      (after.outstanding = before.outstanding ∨
        branches source ∧ after.outstanding = before.outstanding ++ [source]) := by
  have confined := trained.confined
  cases before with
  | alwaysNotTaken =>
    simp only [Strategy.predict, yields_bind, yields_get, and_assoc, exists_eq_left,
      exists_and_left, yields_pure] at predicts
    rcases predicts with ⟨rfl, rfl⟩
    exact ⟨trained, fun _ => rfl, Or.inl rfl⟩
  | alwaysTaken targets | oneBit targets directions | twoBit targets directions =>
    simp only [Strategy.predict, yields_bind, yields_get, and_assoc, exists_eq_left,
      exists_and_left, yields_pure] at predicts
    rcases predicts with ⟨rfl, rfl⟩
    exact ⟨trained, follow_of_not_branches (confined targets rfl) _, Or.inl rfl⟩
  | gshare state =>
    simp only [Strategy.predict, yields_bind, yields_get, and_assoc, exists_eq_left,
      exists_and_left, yields_withGshare] at predicts
    rcases predicts with ⟨changed, predicts, rfl⟩
    rcases trained.recalls state rfl with ⟨enough, confirmed, recalls⟩
    rcases recalls.predict predicts with ⟨recalled, effect, straight⟩
    have taught : state.targets.get? source ≠ none → branches source :=
      fun known => confined state.targets rfl source (ProbeTable.stores_of_get? known)
    refine ⟨⟨trained.kind, ?_, ?_⟩, ?_, ?_⟩
    · intro targets same
      cases same
      rw [effect.targets]
      exact confined state.targets rfl
    · intro other same
      cases same
      exact ⟨effect.sizes.outstanding ▸ enough, confirmed, recalled⟩
    · intro other
      cases known : state.targets.get? source with
      | none => exact straight known
      | some target => exact absurd (taught (known ▸ Option.some_ne_none target)) other
    · rcases effect.sources with same | ⟨known, more⟩
      · exact Or.inl same
      · exact Or.inr ⟨taught known, more⟩

/-- A prediction does not fail as long as the queue has room for it. -/
theorem Trained.exists_predict {source : UInt64} (trained : before.Trained kind branches room)
    (fits : branches source → before.outstanding.length < room) :
    ∃ next after, (Strategy.predict source).Yields before next after := by
  cases before with
  | alwaysNotTaken => exact ⟨_, _, rfl⟩
  | alwaysTaken targets | oneBit targets directions | twoBit targets directions =>
    exact ⟨_, _, rfl⟩
  | gshare state =>
    rcases trained.recalls state rfl with ⟨enough, confirmed, recalls⟩
    have space : state.targets.get? source ≠ none →
        state.outstanding.toList.length < state.outstanding.capacity := by
      intro known
      have taught := trained.confined state.targets rfl source (ProbeTable.stores_of_get? known)
      have fits := fits taught
      simp only [outstanding, Gshare.sources, List.length_map] at fits
      omega
    rcases Gshare.exists_predict recalls source space with ⟨next, after, predicts, -⟩
    refine ⟨next, .gshare after, ?_⟩
    simp only [Strategy.predict, yields_bind, yields_get, and_assoc, exists_eq_left,
      exists_and_left, yields_withGshare]
    exact ⟨after, predicts, rfl⟩

/-- Learning keeps the tables within `branches`. -/
theorem confined_learn {targets : TargetTable} {source : UInt64}
    (confined : ∀ source, targets.Stores source → branches source) (branch : branches source)
    (destination : UInt64) :
    ∀ other, (targets.learn ⟨source, destination⟩).Stores other → branches other := by
  intro other stored
  rcases ProbeTable.stores_of_learn stored with rfl | stored
  · exact branch
  · exact confined other stored

/-- The outcome of a branch is taken in without fail.  The queue then is
empty, or it is as before without this branch at its front. -/
theorem Trained.exists_update {source : UInt64} (trained : before.Trained kind branches room)
    (branch : branches source) (destination : UInt64) (taken : Bool) :
    ∃ after, (update source destination taken).Yields before () after ∧
      after.Trained kind branches room ∧
      (after.outstanding = [] ∨
        (before.outstanding.head? ≠ some source ∧ after.outstanding = before.outstanding) ∨
        (before.outstanding.head? = some source ∧
          after.outstanding = before.outstanding.tail)) := by
  have confined := trained.confined
  cases before with
  | alwaysNotTaken => exact ⟨_, rfl, trained, Or.inl rfl⟩
  | alwaysTaken targets =>
    simp only [update, yields_bind, yields_get, and_assoc, exists_eq_left, exists_and_left]
    by_cases known : targets.contains source = true
    · exact ⟨.alwaysTaken targets, by simp [known], trained, Or.inl rfl⟩
    · refine ⟨.alwaysTaken (targets.learn ⟨source, destination⟩), by simp [known],
        ⟨trained.kind, ?_, ?_⟩, Or.inl rfl⟩
      · intro other same
        cases same
        exact confined_learn (confined targets rfl) branch destination
      · intro state same
        cases same
  | oneBit targets directions | twoBit targets directions =>
    refine ⟨_, rfl, ⟨trained.kind, ?_, ?_⟩, Or.inl rfl⟩
    · intro other same
      cases same
      exact confined_learn (confined targets rfl) branch destination
    · intro state same
      cases same
  | gshare state =>
    rcases trained.recalls state rfl with ⟨enough, confirmed, recalls⟩
    rcases Gshare.exists_update recalls source destination taken with
        ⟨changed, updates, recalled, effect⟩
    refine ⟨.gshare changed, ?_, ⟨trained.kind, ?_, ?_⟩, effect.sources⟩
    · simp only [update, yields_bind, yields_get, and_assoc, exists_eq_left, exists_and_left,
        yields_withGshare]
      exact ⟨changed, updates, rfl⟩
    · intro other same
      cases same
      rw [effect.targets]
      exact confined_learn (confined state.targets rfl) branch destination
    · intro other same
      cases same
      exact ⟨effect.sizes.outstanding ▸ enough, _, recalled⟩

/-- Squashing does not fail and leaves nothing outstanding. -/
theorem Trained.exists_squash (trained : before.Trained kind branches room) :
    ∃ after, squash.Yields before () after ∧ after.Trained kind branches room ∧
      after.outstanding = [] := by
  cases before with
  | alwaysNotTaken => exact ⟨_, rfl, trained, rfl⟩
  | alwaysTaken targets | oneBit targets directions | twoBit targets directions =>
    exact ⟨_, rfl, trained, rfl⟩
  | gshare state =>
    rcases trained.recalls state rfl with ⟨enough, confirmed, recalls⟩
    rcases Gshare.exists_squash recalls with
        ⟨changed, squashes, recalled, sizes, targets, empty, -⟩
    refine ⟨.gshare changed, ?_, ⟨trained.kind, ?_, ?_⟩, List.map_eq_nil_iff.mpr empty⟩
    · simp only [squash, yields_bind, yields_get, and_assoc, exists_eq_left, exists_and_left,
        yields_withGshare]
      exact ⟨changed, squashes, rfl⟩
    · intro other same
      cases same
      rw [targets]
      exact trained.confined state.targets rfl
    · intro other same
      cases same
      exact ⟨sizes.outstanding ▸ enough, confirmed, recalled⟩

end

end Strategy

namespace Predictor

/-- The addresses of the outstanding predictions, the oldest first. -/
def outstanding (predictor : Predictor) : List UInt64 := predictor.strategy.outstanding

/-- Only addresses in `branches` have been taught to the scheme. -/
abbrev Trained (predictor : Predictor) (kind : PredictorKind) (branches : UInt64 → Prop)
    (room : Nat) : Prop :=
  predictor.strategy.Trained kind branches room

section

variable {kind : PredictorKind} {branches : UInt64 → Prop} {room : Nat} {before after : Predictor}

theorem trained_of_create {kind : PredictorKind} {configuration : Configuration}
    {predictor : Predictor} (made : create kind configuration = .ok predictor)
    (branches : UInt64 → Prop) :
    predictor.stalled = true ∧ predictor.Trained kind branches configuration.outstandingCapacity ∧
      predictor.outstanding = [] := by
  rcases bind_eq_ok_iff.mp made with ⟨strategy, created, made⟩
  cases made
  exact ⟨rfl, Strategy.trained_of_create created branches⟩

/-- A prediction is the given address itself behind a stall, and else that of
the scheme. -/
theorem yields_predict {source next : UInt64} :
    (predict source).Yields before next after ↔
      (before.stalled = true ∧ next = source ∧ after = { before with stalled := false }) ∨
      (before.stalled = false ∧ ∃ strategy,
        (Strategy.predict source).Yields before.strategy next strategy ∧
          after = { before with strategy }) := by
  simp only [predict, yields_bind, yields_get, and_assoc, exists_eq_left, exists_and_left]
  cases asleep : before.stalled <;> simp [onStrategy, asleep, and_comm, eq_comm]

theorem yields_update {source destination : UInt64} {taken : Bool} :
    (update source destination taken).Yields before () after ↔
      ∃ strategy, (Strategy.update source destination taken).Yields before.strategy () strategy ∧
        after = { before with strategy } := by
  simp [update, onStrategy]

theorem yields_stall :
    stall.Yields before () after ↔
      ∃ strategy, Strategy.squash.Yields before.strategy () strategy ∧
        after = ⟨true, strategy⟩ := by
  simp [stall, onStrategy]

/-- A prediction that is not passed through keeps the predictor trained, leaves
the straight path only behind a taught address, and adds no other address to
the queue. -/
theorem Trained.predict {source next : UInt64} (trained : before.Trained kind branches room)
    (awake : before.stalled = false) (predicts : (predict source).Yields before next after) :
    after.Trained kind branches room ∧ (¬ branches source → next = source + 1) ∧
      (after.outstanding = before.outstanding ∨
        branches source ∧ after.outstanding = before.outstanding ++ [source]) := by
  rcases yields_predict.mp predicts with ⟨asleep, -⟩ | ⟨-, strategy, guesses, rfl⟩
  · rw [awake] at asleep
    cases asleep
  · exact Strategy.Trained.predict trained guesses

theorem Trained.exists_predict {source : UInt64} (trained : before.Trained kind branches room)
    (fits : branches source → before.outstanding.length < room) :
    ∃ next after, (Predictor.predict source).Yields before next after := by
  cases stalled : before.stalled with
  | true => exact ⟨_, _, yields_predict.mpr (Or.inl ⟨stalled, rfl, rfl⟩)⟩
  | false =>
    rcases Strategy.Trained.exists_predict trained fits with ⟨next, strategy, predicts⟩
    exact ⟨next, _, yields_predict.mpr (Or.inr ⟨stalled, strategy, predicts, rfl⟩)⟩

/-- The outcome of a branch is taken in without fail.  The queue then is
empty, or it is as before without this branch at its front. -/
theorem Trained.exists_update {source : UInt64} (trained : before.Trained kind branches room)
    (branch : branches source) (destination : UInt64) (taken : Bool) :
    ∃ after, (update source destination taken).Yields before () after ∧
      after.Trained kind branches room ∧
      (after.outstanding = [] ∨
        (before.outstanding.head? ≠ some source ∧ after.outstanding = before.outstanding) ∨
        (before.outstanding.head? = some source ∧
          after.outstanding = before.outstanding.tail)) := by
  rcases Strategy.Trained.exists_update trained branch destination taken with
      ⟨strategy, updates, kept, queue⟩
  exact ⟨_, yields_update.mpr ⟨strategy, updates, rfl⟩, kept, queue⟩

theorem Trained.exists_stall (trained : before.Trained kind branches room) :
    ∃ after, stall.Yields before () after ∧ after.Trained kind branches room ∧
      after.outstanding = [] := by
  rcases Strategy.Trained.exists_squash trained with ⟨strategy, squashes, kept, empty⟩
  exact ⟨_, yields_stall.mpr ⟨strategy, squashes, rfl⟩, kept, empty⟩

end

end Predictor
end BranchPipeline
