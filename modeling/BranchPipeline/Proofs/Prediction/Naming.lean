import BranchPipeline.Prediction.Predictor
import BranchPipeline.Proofs.Buffer.Capacity
import BranchPipeline.Proofs.Operation

namespace BranchPipeline

open Attempt

/-!
# Under which name a predictor is full

A full ring fails under its name, and the names of the rings in a predictor
never change.  So a predictor, whatever it has been through, only ever says of
its own history and of its own queue that they are full.  This also holds after
an operation that failed half-way.
-/

/-- If a ring is full, it is the history or the queue of a predictor. -/
def BufferFault.OfPredictor : BufferFault → Prop
  | ringFull name _ => name = "global history" ∨ name = "outstanding branch queue"
  | _ => True

namespace History

theorem name_fill (ring : Ring Bool) (missing : Nat) : (fill ring missing).name = ring.name := by
  induction missing generalizing ring with
  | zero => rfl
  | succ missing inductionHypothesis =>
    rw [fill]
    cases accepted : ring.add true with
    | error fault => rfl
    | ok added => exact (inductionHypothesis added).trans (Ring.name_of_add accepted)

theorem name_of_create {length : Nat} {history : History} (made : create length = .ok history) :
    history.bits.name = "global history" := by
  rcases bind_eq_ok_iff.mp made with ⟨ring, ringMade, made⟩
  cases made
  exact (name_fill ring length).trans (Ring.name_of_create ringMade)

/-- Shifting in keeps the name, and if it fails, then under the name. -/
theorem name_of_push (history : History) (taken : Bool) :
    match history.push taken with
    | .ok (_, pushed) => pushed.bits.name = history.bits.name
    | .error fault => ∃ capacity, fault = .ringFull history.bits.name capacity := by
  have rest := Ring.name_remove history.bits
  unfold push
  cases accepted : history.bits.remove.2.add taken with
  | error fault =>
    have full := ((Ring.add_eq_error_iff _ taken fault).mp accepted).2
    rw [rest] at full
    simp only [accepted]
    exact ⟨_, full⟩
  | ok added =>
    simp only [accepted]
    exact (Ring.name_of_add accepted).trans rest

theorem name_of_reset (history : History) (directions : List Bool) :
    match history.reset directions with
    | .ok changed => changed.bits.name = history.bits.name
    | .error fault => ∃ capacity, fault = .ringFull history.bits.name capacity := by
  have filled := Ring.name_of_addAll (directions.take history.length) history.bits.flush
  unfold reset
  cases taken : (directions.take history.length).foldlM Ring.add history.bits.flush with
  | error fault =>
    rw [taken] at filled
    exact filled
  | ok bits =>
    rw [taken] at filled
    exact filled

end History

namespace Gshare

/-- The rings bear their own names. -/
structure Named (gshare : Gshare) : Prop where
  history : gshare.history.bits.name = "global history"
  outstanding : gshare.outstanding.name = "outstanding branch queue"

/-- The operation fails under one of these names only, and keeps them. -/
abbrev KeepsNames {α : Type} (operation : Attempt Gshare BufferFault α) : Prop :=
  operation.Keeps Named BufferFault.OfPredictor

theorem named_of_create {configuration : Configuration} {gshare : Gshare}
    (made : create configuration = .ok gshare) : gshare.Named := by
  rcases bind_eq_ok_iff.mp made with ⟨history, historyMade, made⟩
  rcases bind_eq_ok_iff.mp made with ⟨outstanding, outstandingMade, made⟩
  rcases bind_eq_ok_iff.mp made with ⟨targets, -, made⟩
  rcases bind_eq_ok_iff.mp made with ⟨directions, -, made⟩
  cases made
  exact ⟨History.name_of_create historyMade, Ring.name_of_create outstandingMade⟩

theorem keepsNames_resetHistory (directions : List Bool) :
    KeepsNames (resetHistory directions) := by
  refine keeps_get_bind fun before named => ?_
  have changed := History.name_of_reset before.history directions
  simp only [ends_bind, ends_ofExcept, ends_set]
  constructor
  · intro history reset
    rw [reset] at changed
    exact ⟨changed.trans named.history, named.outstanding⟩
  · intro fault reset
    rw [reset] at changed
    rcases changed with ⟨capacity, rfl⟩
    exact ⟨Or.inl named.history, named⟩

theorem keepsNames_dropOutstanding : KeepsNames dropOutstanding :=
  keeps_modify fun _ named => ⟨named.history, named.outstanding⟩

theorem keepsNames_queue (prediction : Outstanding) : KeepsNames (queue prediction) := by
  refine keeps_get_bind fun before named => ?_
  simp only [ends_bind, ends_ofExcept, ends_set]
  constructor
  · intro outstanding added
    exact ⟨named.history, (Ring.name_of_add added).trans named.outstanding⟩
  · intro fault refused
    rcases (Ring.add_eq_error_iff _ _ _).mp refused with ⟨-, rfl⟩
    exact ⟨Or.inr named.outstanding, named⟩

theorem keepsNames_predict (source : UInt64) : KeepsNames (predict source) := by
  refine keeps_get_bind fun before named => ?_
  cases before.targets.get? source with
  | none => exact keeps_pure before named
  | some target =>
    have pushed := History.name_of_push before.history
      (((before.directions.get? (directionIndex before.history.toList source)).map
        (·.certainty)).getD true)
    simp only [ends_bind, ends_ofExcept, ends_set]
    constructor
    · rintro ⟨evicted, history⟩ shifted
      rw [shifted] at pushed
      refine (keepsNames_queue _ _ ?_).mono (fun _ _ kept => ends_pure.mpr kept) fun _ _ => id
      exact ⟨pushed.trans named.history, named.outstanding⟩
    · intro fault refused
      rw [refused] at pushed
      rcases pushed with ⟨capacity, rfl⟩
      exact ⟨Or.inl named.history, named⟩

theorem keepsNames_rebuild (taken : Bool) (confirmed : List Bool) :
    KeepsNames (update.rebuild taken confirmed) :=
  keeps_get_bind fun before named =>
    (keepsNames_resetHistory _).bind (fun _ => keepsNames_dropOutstanding) before named

theorem keepsNames_insertConfirmed (confirmed : List Bool) (taken : Bool) :
    KeepsNames (insertConfirmed confirmed taken) := by
  refine keeps_get_bind fun before named => ?_
  refine (keepsNames_resetHistory _).bind (fun _ => ?_) before named
  refine keepsNames_dropOutstanding.bind fun _ => ?_
  exact keeps_forM fun prediction _ => keepsNames_queue prediction

theorem keepsNames_update (source destination : UInt64) (taken : Bool) :
    KeepsNames (update source destination taken) := by
  refine keeps_get_bind fun before named => ?_
  refine Keeps.bind (keeps_modify fun _ named => ⟨named.history, named.outstanding⟩)
    (fun _ => keeps_get_bind fun learned named => ?_) before named
  dsimp only
  cases learned.outstanding.oldest?.filter fun prediction => prediction.source == source with
  | some prediction =>
    by_cases right : (prediction.predicted == taken) = true
    · simp only [right, if_true, ends_set]
      exact ⟨named.history, (Ring.name_remove _).trans named.outstanding⟩
    · simp only [right]
      exact keepsNames_rebuild taken _ learned named
  | none =>
    cases taken with
    | true => exact keepsNames_rebuild true _ learned named
    | false => exact keepsNames_insertConfirmed _ false learned named

theorem keepsNames_squash : KeepsNames squash := by
  refine keeps_get_bind fun before named => ?_
  split
  · exact keeps_pure before named
  · exact (keepsNames_resetHistory _).bind (fun _ => keepsNames_dropOutstanding) before named

end Gshare

namespace Strategy

/-- A scheme without a history has no ring. -/
def Named : Strategy → Prop
  | gshare state => state.Named
  | _ => True

abbrev KeepsNames {α : Type} (operation : Attempt Strategy BufferFault α) : Prop :=
  operation.Keeps Named BufferFault.OfPredictor

theorem named_of_create {configuration : Configuration} {kind : PredictorKind}
    {strategy : Strategy} (made : create configuration kind = .ok strategy) :
    strategy.Named := by
  cases strategy with
  | gshare state =>
    cases kind with
    | gshare =>
      rcases bind_eq_ok_iff.mp made with ⟨gshare, gshareMade, made⟩
      cases made
      exact Gshare.named_of_create gshareMade
    | alwaysNotTaken => cases made
    | alwaysTaken =>
      rcases bind_eq_ok_iff.mp made with ⟨targets, -, made⟩
      cases made
    | oneBit | twoBit =>
      rcases bind_eq_ok_iff.mp made with ⟨targets, -, made⟩
      rcases bind_eq_ok_iff.mp made with ⟨directions, -, made⟩
      cases made
  | _ => trivial

theorem ends_withGshare {α : Type} {state : Gshare} {operation : Attempt Gshare BufferFault α}
    (keeps : Gshare.KeepsNames operation) (named : state.Named) (before : Strategy) :
    (withGshare state operation).Ends before (fun _ after => after.Named)
      fun fault after => fault.OfPredictor ∧ after.Named := by
  have ends := keeps state named
  simp only [withGshare, ends_bind, ends_set, ends_ofExcept]
  cases ran : operation.perform state with
  | mk result changed =>
    constructor
    · rintro value rfl
      exact ends.1 value changed ran
    · rintro fault rfl
      exact ends.2 fault changed ran

theorem keepsNames_predict (source : UInt64) : KeepsNames (predict source) := by
  refine keeps_get_bind fun before named => ?_
  cases before with
  | gshare state => exact ends_withGshare (Gshare.keepsNames_predict source) named _
  | _ => exact keeps_pure _ named

theorem keepsNames_update (source destination : UInt64) (taken : Bool) :
    KeepsNames (update source destination taken) := by
  refine keeps_get_bind fun before named => ?_
  cases before with
  | gshare state =>
    exact ends_withGshare (Gshare.keepsNames_update source destination taken) named _
  | alwaysNotTaken => exact keeps_pure _ named
  | alwaysTaken targets =>
    dsimp only
    split
    · exact ends_set.mpr trivial
    · exact keeps_pure _ named
  | oneBit targets directions | twoBit targets directions => exact ends_set.mpr trivial

theorem keepsNames_squash : KeepsNames squash := by
  refine keeps_get_bind fun before named => ?_
  cases before with
  | gshare state => exact ends_withGshare Gshare.keepsNames_squash named _
  | _ => exact keeps_pure _ named

end Strategy

namespace Predictor

def Named (predictor : Predictor) : Prop := predictor.strategy.Named

abbrev KeepsNames {α : Type} (operation : Attempt Predictor BufferFault α) : Prop :=
  operation.Keeps Named BufferFault.OfPredictor

theorem named_of_create {configuration : Configuration} {kind : PredictorKind}
    {predictor : Predictor} (made : create kind configuration = .ok predictor) :
    predictor.Named := by
  rcases bind_eq_ok_iff.mp made with ⟨strategy, strategyMade, made⟩
  cases made
  exact Strategy.named_of_create strategyMade

theorem keepsNames_onStrategy {α : Type} {operation : Attempt Strategy BufferFault α}
    (keeps : Strategy.KeepsNames operation) : KeepsNames (onStrategy operation) :=
  fun before named => ends_onPart.mpr (keeps before.strategy named)

theorem keepsNames_predict (source : UInt64) : KeepsNames (predict source) := by
  refine keeps_get_bind fun before named => ?_
  split
  · simp only [ends_bind, ends_set, ends_pure]
    exact named
  · exact keepsNames_onStrategy (Strategy.keepsNames_predict source) before named

theorem keepsNames_update (source destination : UInt64) (taken : Bool) :
    KeepsNames (update source destination taken) :=
  keepsNames_onStrategy (Strategy.keepsNames_update source destination taken)

theorem keepsNames_stall : KeepsNames stall :=
  Keeps.bind (keeps_modify fun _ named => named) fun _ =>
    keepsNames_onStrategy Strategy.keepsNames_squash

end Predictor
end BranchPipeline
