import BranchPipeline.Prediction.Gshare
import BranchPipeline.Proofs.Operation
import BranchPipeline.Proofs.Prediction.HistoryShift

namespace BranchPipeline
namespace Gshare

open Attempt

/-!
# What the history predictor remembers of resolved branches

A prediction moves one direction from the history into the queue, so history
and queue together hold more than either shows.  The invariant `Recalls` says
what they hold: the evicted directions followed by the history are the
confirmed history followed by the predicted directions.  Every operation is
described by what it does to the two sides of this equation.  Nothing else is
needed to see that no direction is lost, doubled or misplaced, however many
predictions are outstanding.
-/

/-- The addresses of the outstanding predictions, the oldest first. -/
def sources (gshare : Gshare) : List UInt64 := gshare.outstanding.toList.map (·.source)

/-- The history is full, and with every outstanding prediction undone it is
`confirmed`. -/
structure Recalls (gshare : Gshare) (confirmed : List Bool) : Prop where
  positive : 0 < gshare.history.length
  full : gshare.history.toList.length = gshare.history.length
  balance : gshare.outstanding.toList.map (·.evicted) ++ gshare.history.toList =
    confirmed ++ gshare.outstanding.toList.map (·.predicted)

/-- Two predictors of the same dimensions. -/
structure SameSizes (first second : Gshare) : Prop where
  history : second.history.length = first.history.length
  outstanding : second.outstanding.capacity = first.outstanding.capacity

theorem Recalls.length_confirmed {gshare : Gshare} {confirmed : List Bool}
    (recalls : gshare.Recalls confirmed) : confirmed.length = gshare.history.length := by
  have lengths := congrArg List.length recalls.balance
  simp only [List.length_append, List.length_map, recalls.full] at lengths
  omega

/-- The confirmed history is a function of the state. -/
theorem Recalls.confirmed_eq {gshare : Gshare} {confirmed : List Bool}
    (recalls : gshare.Recalls confirmed) : gshare.confirmed = confirmed := by
  rw [Gshare.confirmed, recalls.balance, ← recalls.length_confirmed, List.take_left]

/-- A predictor without outstanding predictions recalls its history. -/
theorem Recalls.of_settled {gshare : Gshare} (positive : 0 < gshare.history.length)
    (full : gshare.history.toList.length = gshare.history.length)
    (settled : gshare.outstanding.toList = []) : gshare.Recalls gshare.history.toList where
  positive := positive
  full := full
  balance := by rw [settled, List.map_nil, List.nil_append, List.map_nil, List.append_nil]

/-- The new confirmed history: it has lost its oldest direction. -/
theorem latest_append_singleton {confirmed : List Bool} (taken : Bool) :
    latest confirmed.length (confirmed ++ [taken]) = (confirmed ++ [taken]).drop 1 := by
  rw [latest, List.length_append, List.length_singleton, Nat.add_sub_cancel_left]

theorem recalls_of_create {configuration : Configuration} {gshare : Gshare}
    (made : create configuration = .ok gshare) :
    gshare.Recalls (List.replicate configuration.historyLength true) ∧
      gshare.history.length = configuration.historyLength ∧
      gshare.outstanding.capacity = configuration.outstandingCapacity ∧
      gshare.outstanding.toList = [] := by
  rcases bind_eq_ok_iff.mp made with ⟨history, historyMade, made⟩
  rcases bind_eq_ok_iff.mp made with ⟨outstanding, queueMade, made⟩
  rcases bind_eq_ok_iff.mp made with ⟨targets, -, made⟩
  rcases bind_eq_ok_iff.mp made with ⟨directions, -, made⟩
  cases made
  rcases History.of_create historyMade with ⟨positive, length, contents⟩
  have empty := Ring.toList_of_create queueMade
  have full : history.toList.length = history.length := by
    rw [contents, List.length_replicate, length]
  have settled : Recalls ⟨history, outstanding, targets, directions⟩ history.toList :=
    .of_settled (Nat.lt_of_lt_of_eq positive length.symm) full empty
  rw [← contents]
  exact ⟨settled, length, Ring.capacity_of_create queueMade, empty⟩

/-! ## The parts of an operation -/

theorem exists_resetHistory (gshare : Gshare) (directions : List Bool)
    (enough : directions.length = gshare.history.length) :
    ∃ history, (resetHistory directions).Yields gshare () { gshare with history } ∧
      history.toList = directions ∧ history.length = gshare.history.length := by
  rcases History.reset_of_length enough with ⟨history, accepted, contents, length⟩
  exact ⟨history, by simp [resetHistory, accepted], contents, length⟩

theorem exists_queue (gshare : Gshare) (prediction : Outstanding)
    (room : gshare.outstanding.toList.length < gshare.outstanding.capacity) :
    ∃ outstanding, (queue prediction).Yields gshare () { gshare with outstanding } ∧
      outstanding.toList = gshare.outstanding.toList ++ [prediction] ∧
      outstanding.capacity = gshare.outstanding.capacity := by
  rcases gshare.outstanding.exists_add prediction room with ⟨outstanding, accepted, contents, slots⟩
  exact ⟨outstanding, by simp [queue, accepted], contents, slots⟩

theorem exists_queueAll (predictions : List Outstanding) (gshare : Gshare)
    (room : gshare.outstanding.toList.length + predictions.length ≤ gshare.outstanding.capacity) :
    ∃ outstanding, (predictions.forM queue).Yields gshare () { gshare with outstanding } ∧
      outstanding.toList = gshare.outstanding.toList ++ predictions ∧
      outstanding.capacity = gshare.outstanding.capacity := by
  induction predictions generalizing gshare with
  | nil => exact ⟨gshare.outstanding, rfl, (List.append_nil _).symm, rfl⟩
  | cons prediction predictions inductionHypothesis =>
    rw [List.length_cons] at room
    rcases gshare.exists_queue prediction (by omega) with ⟨outstanding, accepted, contents, slots⟩
    rcases inductionHypothesis { gshare with outstanding } (by
      rw [contents, slots, List.length_append, List.length_singleton]
      omega) with ⟨all, queued, held, capacity⟩
    refine ⟨all, ?_, ?_, capacity.trans slots⟩
    · show (queue prediction >>= fun _ => predictions.forM queue).Yields gshare () _
      exact yields_bind.mpr ⟨(), _, accepted, queued⟩
    · rw [held, contents, List.append_assoc, List.singleton_append]

/-! ## Predicting -/

/-- What a prediction for `source` may do to the state. -/
structure Predicted (before : Gshare) (source : UInt64) (after : Gshare) : Prop where
  sizes : SameSizes before after
  targets : after.targets = before.targets
  sources : after.sources = before.sources ∨
    (before.targets.get? source ≠ none ∧ after.sources = before.sources ++ [source])

/-- A prediction fails only if the queue is full.  Otherwise it shifts a
direction through the history into the queue, or does nothing at all. -/
theorem exists_predict {gshare : Gshare} {confirmed : List Bool}
    (recalls : gshare.Recalls confirmed) (source : UInt64)
    (room : gshare.targets.get? source ≠ none →
      gshare.outstanding.toList.length < gshare.outstanding.capacity) :
    ∃ next after, (predict source).Yields gshare next after ∧ after.Recalls confirmed ∧
      Predicted gshare source after ∧
      (gshare.targets.get? source = none → next = source + 1) := by
  cases known : gshare.targets.get? source with
  | none =>
    refine ⟨source + 1, gshare, ?_, recalls, ⟨⟨rfl, rfl⟩, rfl, Or.inl rfl⟩, fun _ => rfl⟩
    simp [predict, and_assoc, known]
  | some target =>
    have filled : 0 < gshare.history.toList.length := by
      rw [recalls.full]
      exact recalls.positive
    rcases List.exists_cons_of_length_pos filled with ⟨oldest, younger, held⟩
    let taken := ((gshare.directions.get?
      (directionIndex gshare.history.toList source)).map (·.certainty)).getD true
    rcases History.push_of_full taken recalls.full held with ⟨history, shifted, contents, length⟩
    rcases exists_queue { gshare with history } ⟨oldest, source, taken⟩
        (room (by rw [known]; exact Option.some_ne_none target)) with
        ⟨outstanding, queued, waiting, slots⟩
    refine ⟨if taken then target.destination else source + 1,
      { gshare with history, outstanding }, ?_, ⟨?_, ?_, ?_⟩,
      ⟨⟨length, slots⟩, rfl, Or.inr ⟨?_, ?_⟩⟩, ?_⟩
    · simp only [predict, yields_bind, yields_get, and_assoc, exists_and_left, exists_eq_left,
        known, yields_ofExcept, yields_set]
      exact ⟨(oldest, history), shifted, (), (), _, queued, rfl⟩
    · simpa only [length] using recalls.positive
    · rw [contents, length, ← recalls.full, held, List.length_append, List.length_singleton,
        List.length_cons]
    · have balance := recalls.balance
      rw [held] at balance
      simp only [waiting, contents, List.map_append, List.map_cons, List.map_nil]
      rw [← List.append_assoc confirmed, ← balance]
      simp only [List.append_assoc, List.cons_append, List.nil_append]
    · rw [known]
      exact Option.some_ne_none target
    · simp only [sources, waiting, List.map_append, List.map_cons, List.map_nil]
    · intro absent
      cases absent

/-- A prediction that is queued has found room in the queue. -/
theorem room_of_predict {gshare after : Gshare} {source next : UInt64}
    (predicts : (predict source).Yields gshare next after)
    (known : gshare.targets.get? source ≠ none) :
    gshare.outstanding.toList.length < gshare.outstanding.capacity := by
  rcases Option.ne_none_iff_exists'.mp known with ⟨target, found⟩
  simp only [predict, yields_bind, yields_get, and_assoc, exists_and_left, exists_eq_left, found,
    yields_ofExcept, yields_set, queue] at predicts
  rcases predicts with ⟨_, _, _, _, _, ⟨outstanding, accepted, _⟩, _⟩
  exact Ring.room_of_add accepted

theorem Recalls.predict {gshare after : Gshare} {confirmed : List Bool} {source next : UInt64}
    (recalls : gshare.Recalls confirmed)
    (predicts : (predict source).Yields gshare next after) :
    after.Recalls confirmed ∧ Predicted gshare source after ∧
      (gshare.targets.get? source = none → next = source + 1) := by
  rcases exists_predict recalls source (room_of_predict predicts) with
      ⟨address, reached, ends, recalled, effect, straight⟩
  rcases ends.unique predicts with ⟨rfl, rfl⟩
  exact ⟨recalled, effect, straight⟩

/-! ## Learning an outcome -/

/-- The confirmed history after one more outcome. -/
def recorded (confirmed : List Bool) (taken : Bool) : List Bool :=
  latest confirmed.length (confirmed ++ [taken])

theorem recorded_cons (oldest : Bool) (younger : List Bool) (taken : Bool) :
    recorded (oldest :: younger) taken = younger ++ [taken] := by
  rw [recorded, latest_append_singleton, List.cons_append, List.drop_succ_cons, List.drop_zero]

theorem Recalls.exists_cons {gshare : Gshare} {confirmed : List Bool}
    (recalls : gshare.Recalls confirmed) : ∃ oldest younger, confirmed = oldest :: younger := by
  apply List.exists_cons_of_length_pos
  rw [recalls.length_confirmed]
  exact recalls.positive

/-- What the outcome of a branch at `source` may do to the queue: it may drop
all predictions, leave them alone if the oldest one is for another branch, or
take off the oldest one if it is for this branch. -/
structure Updated (before : Gshare) (source destination : UInt64) (after : Gshare) : Prop where
  sizes : SameSizes before after
  targets : after.targets = before.targets.learn ⟨source, destination⟩
  sources : after.sources = [] ∨
    (before.sources.head? ≠ some source ∧ after.sources = before.sources) ∨
    (before.sources.head? = some source ∧ after.sources = before.sources.tail)

/-- An outcome puts nothing into an empty queue. -/
theorem Updated.settled {before after : Gshare} {source destination : UInt64}
    (effect : Updated before source destination after) (empty : before.sources = []) :
    after.sources = [] := by
  rcases effect.sources with dropped | ⟨-, same⟩ | ⟨-, fewer⟩
  · exact dropped
  · exact same.trans empty
  · rw [fewer, empty, List.tail_nil]

/-- Rebuilding keeps the confirmed history and the outcome, and nothing else. -/
theorem exists_rebuild {gshare : Gshare} {confirmed : List Bool}
    (recalls : gshare.Recalls confirmed) (taken : Bool) :
    ∃ after, (update.rebuild taken confirmed).Yields gshare () after ∧
      after.Recalls (recorded confirmed taken) ∧ SameSizes gshare after ∧
      after.targets = gshare.targets ∧ after.sources = [] := by
  have length : (recorded confirmed taken).length = gshare.history.length := by
    rw [recorded, latest_append_singleton, List.length_drop, List.length_append,
      List.length_singleton, Nat.add_sub_cancel]
    exact recalls.length_confirmed
  rcases gshare.exists_resetHistory _ length with ⟨history, replaced, contents, size⟩
  refine ⟨{ gshare with history, outstanding := gshare.outstanding.flush }, ?_, ?_, ⟨size, rfl⟩,
    rfl, congrArg _ (Ring.toList_flush _)⟩
  · simp only [update.rebuild, yields_bind, yields_get, and_assoc, exists_and_left,
      exists_eq_left, dropOutstanding, yields_modify]
    rw [← recalls.length_confirmed]
    exact ⟨(), _, replaced, rfl⟩
  · rw [← contents]
    apply Recalls.of_settled
    · exact Nat.lt_of_lt_of_eq recalls.positive size.symm
    · exact (congrArg List.length contents).trans (length.trans size.symm)
    · exact Ring.toList_flush _

/-- The predictions of a queue, each with the direction that it now evicts. -/
def moved (pending : List Outstanding) (directions : List Bool) : List Outstanding :=
  List.zipWith (fun prediction evicted => { prediction with evicted }) pending directions

theorem map_moved (pending : List Outstanding) (directions : List Bool)
    (enough : pending.length ≤ directions.length) :
    (moved pending directions).map (·.evicted) = directions.take pending.length ∧
      (moved pending directions).map (·.predicted) = pending.map (·.predicted) ∧
      (moved pending directions).map (·.source) = pending.map (·.source) := by
  induction pending generalizing directions with
  | nil => exact ⟨rfl, rfl, rfl⟩
  | cons prediction pending inductionHypothesis =>
    cases directions with
    | nil => simp at enough
    | cons direction directions =>
      rcases inductionHypothesis directions (Nat.le_of_succ_le_succ enough) with
          ⟨evicted, predicted, sources⟩
      simp only [moved] at evicted predicted sources
      simp only [moved, List.zipWith_cons_cons, List.map_cons, evicted, predicted, sources,
        List.length_cons, List.take_succ_cons, and_self]

/-- An outcome below the queue moves every evicted direction on by one place
and leaves the predictions themselves alone. -/
theorem exists_insertConfirmed {gshare : Gshare} {confirmed : List Bool}
    (recalls : gshare.Recalls confirmed) (taken : Bool) :
    ∃ after, (insertConfirmed confirmed taken).Yields gshare () after ∧
      after.Recalls (recorded confirmed taken) ∧ SameSizes gshare after ∧
      after.targets = gshare.targets ∧ after.sources = gshare.sources := by
  -- All directions from the oldest that is still known on: the queue may be
  -- longer than the history, so that the outcome itself may be evicted.
  let pending := gshare.outstanding.toList
  let directions := confirmed ++ taken :: pending.map (·.predicted)
  have length : directions.length = gshare.history.length + 1 + pending.length := by
    simp only [directions, List.length_append, List.length_cons, List.length_map,
      recalls.length_confirmed]
    omega
  have behind : latest gshare.history.length directions = directions.drop (1 + pending.length) := by
    rw [latest, length]
    congr 1
    omega
  rcases gshare.exists_resetHistory
    (latest gshare.history.length directions) (by
      rw [behind, List.length_drop, length]
      omega) with ⟨history, replaced, contents, size⟩
  rcases map_moved pending (directions.drop 1) (by
    rw [List.length_drop, length]
    omega) with ⟨evicted, predicted, sources⟩
  have fewer : (moved pending (directions.drop 1)).length = pending.length := by
    rw [← List.length_map (·.predicted), predicted, List.length_map]
  rcases exists_queueAll
    (moved pending (directions.drop 1))
    { gshare with history, outstanding := gshare.outstanding.flush } (by
      rw [fewer, Ring.toList_flush, List.length_nil, Nat.zero_add]
      exact gshare.outstanding.length_toList_le) with ⟨outstanding, queued, waiting, slots⟩
  rw [Ring.toList_flush, List.nil_append] at waiting
  refine ⟨{ gshare with history, outstanding }, ?_, ⟨?_, ?_, ?_⟩, ⟨size, slots⟩, rfl, ?_⟩
  · simp only [insertConfirmed, yields_bind, yields_get, and_assoc, exists_and_left,
      exists_eq_left, dropOutstanding, yields_modify]
    exact ⟨(), _, replaced, (), queued⟩
  · exact Nat.lt_of_lt_of_eq recalls.positive size.symm
  · rw [contents, behind, List.length_drop, length, size]
    omega
  · rcases recalls.exists_cons with ⟨oldest, younger, rfl⟩
    rw [waiting, evicted, predicted, contents, behind, ← List.drop_drop, List.take_append_drop,
      recorded_cons]
    simp only [directions, List.cons_append, List.drop_succ_cons, List.drop_zero,
      List.append_assoc, List.nil_append]
  · exact (congrArg (List.map (·.source)) waiting).trans sources

/-- Taking the oldest prediction off, whose direction came true, makes its
outcome the latest confirmed one. -/
theorem Recalls.retire {gshare : Gshare} {confirmed : List Bool} {prediction : Outstanding}
    (recalls : gshare.Recalls confirmed)
    (oldest : gshare.outstanding.toList.head? = some prediction) :
    ({ gshare with outstanding := gshare.outstanding.remove.2 } : Gshare).Recalls
      (recorded confirmed prediction.predicted) where
  positive := recalls.positive
  full := recalls.full
  balance := by
    rcases List.head?_eq_some_iff.mp oldest with ⟨younger, queue⟩
    rcases recalls.exists_cons with ⟨first, rest, rfl⟩
    have balance := recalls.balance
    rw [queue] at balance
    injection balance with _ balance
    rw [Ring.toList_remove, queue, recorded_cons, List.append_assoc]
    exact balance

/-- Learning touches neither the history nor the queue. -/
theorem Recalls.learn {gshare : Gshare} {confirmed : List Bool} (recalls : gshare.Recalls confirmed)
    (index source destination : UInt64) (taken : Bool) :
    (gshare.learn index source destination taken).Recalls confirmed :=
  ⟨recalls.positive, recalls.full, recalls.balance⟩

theorem head?_sources (gshare : Gshare) :
    gshare.sources.head? = gshare.outstanding.oldest?.map (·.source) := by
  rw [sources, List.head?_map, Ring.oldest?_eq]

/-- Taking in an outcome never fails, and on each of its ways it makes the
outcome the latest confirmed direction. -/
theorem exists_update {gshare : Gshare} {confirmed : List Bool}
    (recalls : gshare.Recalls confirmed) (source destination : UInt64) (taken : Bool) :
    ∃ after, (update source destination taken).Yields gshare () after ∧
      after.Recalls (recorded confirmed taken) ∧ Updated gshare source destination after := by
  simp only [update, yields_bind, yields_get, and_assoc, exists_and_left, exists_eq_left,
    yields_modify, recalls.confirmed_eq, exists_const]
  have still := recalls.learn (directionIndex confirmed source) source destination taken
  have known : (gshare.learn (directionIndex confirmed source) source destination taken).targets =
    gshare.targets.learn ⟨source, destination⟩ := rfl
  have queue :
    (gshare.learn (directionIndex confirmed source) source destination taken).outstanding =
      gshare.outstanding := rfl
  have history : (gshare.learn (directionIndex confirmed source) source destination taken).history =
    gshare.history := rfl
  generalize gshare.learn (directionIndex confirmed source) source destination taken = learned
    at still known queue history
  have unchanged : learned.sources = gshare.sources := by rw [sources, queue, sources]
  cases matched : learned.outstanding.oldest?.filter
      (fun prediction => prediction.source == source) with
  | none =>
    have other : gshare.sources.head? ≠ some source := by
      intro same
      rw [head?_sources, Option.map_eq_some_iff] at same
      rcases same with ⟨prediction, oldest, rfl⟩
      rw [queue, oldest, Option.filter_some, if_pos (beq_self_eq_true _)] at matched
      cases matched
    cases taken with
    | true =>
      rcases exists_rebuild still true with ⟨after, rebuilt, recalled, sizes, targets, dropped⟩
      exact ⟨after, rebuilt, recalled, ⟨history ▸ sizes.history, queue ▸ sizes.outstanding⟩,
        targets.trans known, Or.inl dropped⟩
    | false =>
      rcases exists_insertConfirmed still false with
          ⟨after, inserted, recalled, sizes, targets, same⟩
      exact ⟨after, inserted, recalled, ⟨history ▸ sizes.history, queue ▸ sizes.outstanding⟩,
        targets.trans known, Or.inr (Or.inl ⟨other, same.trans unchanged⟩)⟩
  | some prediction =>
    rcases Option.filter_eq_some_iff.mp matched with ⟨oldest, here⟩
    by_cases cameTrue : prediction.predicted = taken
    · subst cameTrue
      have first : gshare.sources.head? = some source := by
        rw [head?_sources, ← queue, oldest, Option.map_some, beq_iff_eq.mp here]
      rw [Ring.oldest?_eq] at oldest
      refine ⟨{ learned with outstanding := learned.outstanding.remove.2 }, ?_,
        still.retire oldest, ⟨congrArg _ history, ?_⟩, known, Or.inr (Or.inr ⟨first, ?_⟩)⟩
      · simp
      · exact (Ring.capacity_remove _).trans (congrArg _ queue)
      · rw [← unchanged, sources, sources, Ring.toList_remove, List.map_tail]
    · rcases exists_rebuild still taken with ⟨after, rebuilt, recalled, sizes, targets, dropped⟩
      refine ⟨after, ?_, recalled, ⟨history ▸ sizes.history, queue ▸ sizes.outstanding⟩,
        targets.trans known, Or.inl dropped⟩
      simpa [cameTrue] using rebuilt

/-! ## Dropping what was flushed -/

/-- Squashing empties the queue and restores the confirmed history. -/
theorem exists_squash {gshare : Gshare} {confirmed : List Bool}
    (recalls : gshare.Recalls confirmed) :
    ∃ after, squash.Yields gshare () after ∧ after.Recalls confirmed ∧ SameSizes gshare after ∧
      after.targets = gshare.targets ∧ after.outstanding.toList = [] ∧
      after.history.toList = confirmed := by
  simp only [squash, yields_bind, yields_get, and_assoc, exists_and_left, exists_eq_left,
    recalls.confirmed_eq]
  by_cases empty : gshare.outstanding.toList = []
  · have balance := recalls.balance
    rw [empty, List.map_nil, List.nil_append, List.map_nil, List.append_nil] at balance
    refine ⟨gshare, ?_, recalls, ⟨rfl, rfl⟩, rfl, empty, balance⟩
    simp [(Ring.isEmpty_iff _).mpr empty]
  · rcases gshare.exists_resetHistory _ recalls.length_confirmed with
        ⟨history, replaced, contents, size⟩
    have waiting : ¬ gshare.outstanding.isEmpty = true := mt (Ring.isEmpty_iff _).mp empty
    refine ⟨{ gshare with history, outstanding := gshare.outstanding.flush }, ?_, ?_, ⟨size, rfl⟩,
      rfl, Ring.toList_flush _, contents⟩
    · simp only [waiting, Bool.false_eq_true, if_false, yields_bind, dropOutstanding,
        yields_modify]
      exact ⟨(), _, replaced, rfl⟩
    · rw [← contents]
      apply Recalls.of_settled
      · exact Nat.lt_of_lt_of_eq recalls.positive size.symm
      · exact (congrArg List.length contents).trans (recalls.length_confirmed.trans size.symm)
      · exact Ring.toList_flush _

end Gshare
end BranchPipeline
