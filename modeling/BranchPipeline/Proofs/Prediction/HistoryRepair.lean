import BranchPipeline.Proofs.Prediction.Confirmed

namespace BranchPipeline
namespace Gshare

open Attempt

/-!
# Runs of the history predictor

The three operations may follow each other in any order.  Whatever the order,
the confirmed history is the tail of what has been resolved so far, behind a
start that is all "taken".  Only a prediction can fail, and only because its
queue is full; runs in which one has failed are left out here.
-/

/-- One operation with its arguments. -/
inductive Call where
  | predict (source : UInt64)
  | update (source destination : UInt64) (taken : Bool)
  | squash
  deriving DecidableEq

namespace Call

/-- Makes the call; the address that a prediction gives is not looked at. -/
def run : Call → Attempt Gshare BufferFault Unit
  | predict source => do
    let _ ← Gshare.predict source
    return
  | update source destination taken => Gshare.update source destination taken
  | squash => Gshare.squash

/-- The outcome that a call takes in. -/
def outcomes : Call → List Bool
  | update _ _ taken => [taken]
  | predict _ | squash => []

/-- Whether a call asks for a prediction. -/
def isPrediction : Call → Bool
  | predict _ => true
  | update _ _ _ | squash => false

end Call

/-- The calls lead from one state to the other, and no prediction among them
has failed. -/
inductive Reaches (start : Gshare) : List Call → Gshare → Prop
  | start : Reaches start [] start
  | call {calls : List Call} {before after : Gshare} {call : Call}
      {result : Except BufferFault Unit} (earlier : Reaches start calls before)
      (made : call.run.perform before = (result, after))
      (predicted : call.isPrediction = true → result = .ok ()) :
      Reaches start (calls ++ [call]) after

/-- The confirmed history after the given outcomes. -/
def confirmedAfter (length : Nat) (outcomes : List Bool) : List Bool :=
  (List.replicate length true ++ outcomes).drop outcomes.length

theorem length_confirmedAfter (length : Nat) (outcomes : List Bool) :
    (confirmedAfter length outcomes).length = length := by
  rw [confirmedAfter, List.length_drop, List.length_append, List.length_replicate,
    Nat.add_sub_cancel]

/-- One more outcome is recorded behind the others. -/
theorem confirmedAfter_append (length : Nat) (outcomes : List Bool) (taken : Bool) :
    confirmedAfter length (outcomes ++ [taken]) =
      recorded (confirmedAfter length outcomes) taken := by
  rw [recorded, latest_append_singleton, confirmedAfter, confirmedAfter, ← List.append_assoc,
    List.length_append, List.length_singleton, ← List.drop_drop,
    List.drop_append_of_le_length (by rw [List.length_append]; omega)]

/-- One call, unless it is a prediction that fails, keeps the balance of
history and queue and adds its outcome to the confirmed history. -/
theorem Recalls.call {before after : Gshare} {outcomes : List Bool} {call : Call}
    {result : Except BufferFault Unit} {length : Nat}
    (recalls : before.Recalls (confirmedAfter length outcomes))
    (made : call.run.perform before = (result, after))
    (predicted : call.isPrediction = true → result = .ok ()) :
    after.Recalls (confirmedAfter length (outcomes ++ call.outcomes)) := by
  cases call with
  | predict source =>
    rw [Call.outcomes, List.append_nil]
    rw [predicted rfl] at made
    rcases yields_bind.mp made with ⟨next, middle, predicts, done⟩
    rcases yields_pure.mp done with ⟨-, rfl⟩
    exact (recalls.predict predicts).1
  | update source destination taken =>
    rw [Call.outcomes, confirmedAfter_append]
    rcases exists_update recalls source destination taken with ⟨reached, updates, recalled, -⟩
    have same := updates.symm.trans made
    injection same with _ states
    exact states ▸ recalled
  | squash =>
    rw [Call.outcomes, List.append_nil]
    rcases exists_squash recalls with ⟨reached, squashes, recalled, -⟩
    have same := squashes.symm.trans made
    injection same with _ states
    exact states ▸ recalled

theorem Reaches.recalls {configuration : Configuration} {start reached : Gshare}
    {calls : List Call} (made : create configuration = .ok start)
    (reaches : start.Reaches calls reached) :
    reached.Recalls (confirmedAfter configuration.historyLength (calls.flatMap Call.outcomes)) := by
  induction reaches with
  | start =>
    have initial := (recalls_of_create made).1
    rwa [List.flatMap_nil, confirmedAfter, List.append_nil, List.length_nil, List.drop_zero]
  | call earlier ran predicted recalls =>
    rw [List.flatMap_append, List.flatMap_singleton]
    exact recalls.call ran predicted

/-- History repair.  After any calls among which no prediction has failed, the
history is full, the evicted directions followed by the history are the
confirmed history followed by the predicted directions, and the confirmed
history is what is left of `N` times "taken" and all outcomes when only the
last `N` directions are kept.  From there, a prediction that succeeds leaves
the confirmed history alone; squashing succeeds, leaves it alone too, and makes
it the history itself, with nothing outstanding; and the outcome of a branch,
whether or not that branch was predicted, is taken in without fail and adds
exactly itself. -/
theorem history_repaired {configuration : Configuration} {start reached : Gshare}
    {calls : List Call} (made : create configuration = .ok start)
    (reaches : start.Reaches calls reached) :
    reached.history.toList.length = configuration.historyLength ∧
    reached.outstanding.toList.map (·.evicted) ++ reached.history.toList =
      reached.confirmed ++ reached.outstanding.toList.map (·.predicted) ∧
    reached.confirmed =
      confirmedAfter configuration.historyLength (calls.flatMap Call.outcomes) ∧
    (∀ source next after, (predict source).Yields reached next after →
      after.confirmed = reached.confirmed) ∧
    (∃ after, squash.Yields reached () after ∧ after.confirmed = reached.confirmed ∧
      after.history.toList = reached.confirmed ∧ after.outstanding.toList = []) ∧
    (∀ source destination taken, ∃ after,
      (update source destination taken).Yields reached () after ∧
      after.confirmed = (reached.confirmed ++ [taken]).drop 1) := by
  have recalls := reaches.recalls made
  have confirmed := recalls.confirmed_eq
  have length := recalls.length_confirmed
  rw [length_confirmedAfter] at length
  refine ⟨recalls.full.trans length.symm, ?_, confirmed, ?_, ?_, ?_⟩
  · rw [confirmed]
    exact recalls.balance
  · intro source next after predicts
    exact (recalls.predict predicts).1.confirmed_eq.trans confirmed.symm
  · rcases exists_squash recalls with ⟨after, squashes, recalled, -, -, empty, contents⟩
    exact ⟨after, squashes, recalled.confirmed_eq.trans confirmed.symm,
      contents.trans confirmed.symm, empty⟩
  · intro source destination taken
    rcases exists_update recalls source destination taken with ⟨after, updates, recalled, -⟩
    refine ⟨after, updates, ?_⟩
    rw [recalled.confirmed_eq, recorded, latest_append_singleton, confirmed]

/-- Two outcomes of one branch, a prediction for it, and then the outcome of an
older branch that was not predicted, which goes below the prediction. -/
theorem history_repaired_below_prediction :
    ∃ start reached, create { historyLength := 4 } = .ok start ∧
      start.Reaches [.update 10 20 false, .update 10 20 true, .predict 10, .update 5 50 false]
        reached ∧
      reached.history.toList.length = 4 ∧ reached.confirmed = [true, false, true, false] := by
  have created : ∃ start, create { historyLength := 4 } = .ok start := ⟨_, rfl⟩
  rcases created with ⟨start, made⟩
  rcases recalls_of_create made with ⟨initial, -, slots, empty⟩
  rcases exists_update initial 10 20 false with ⟨one, firstUpdate, oneRecalls, oneEffect⟩
  rcases exists_update oneRecalls 10 20 true with ⟨two, secondUpdate, twoRecalls, twoEffect⟩
  have oneSettled := oneEffect.settled (List.map_eq_nil_iff.mpr empty)
  have twoSettled := List.map_eq_nil_iff.mp (twoEffect.settled oneSettled)
  have room : two.outstanding.toList.length < two.outstanding.capacity := by
    rw [twoSettled, twoEffect.sizes.outstanding, oneEffect.sizes.outstanding, slots]
    decide
  rcases exists_predict twoRecalls 10 (fun _ => room) with ⟨next, three, predicts, threeRecalls, -⟩
  rcases exists_update threeRecalls 5 50 false with ⟨four, lastUpdate, -⟩
  have reaches : start.Reaches
      [.update 10 20 false, .update 10 20 true, .predict 10, .update 5 50 false] four := by
    have one : start.Reaches [.update 10 20 false] one :=
      .call .start firstUpdate (fun _ => rfl)
    have two : start.Reaches [.update 10 20 false, .update 10 20 true] two :=
      .call one secondUpdate (fun _ => rfl)
    have three : start.Reaches [.update 10 20 false, .update 10 20 true, .predict 10] three :=
      .call two (yields_bind.mpr ⟨next, three, predicts, rfl⟩) (fun _ => rfl)
    exact .call three lastUpdate (fun _ => rfl)
  have repaired := history_repaired made reaches
  refine ⟨start, four, made, reaches, repaired.1, ?_⟩
  rw [repaired.2.2.1]
  decide

end Gshare
end BranchPipeline
