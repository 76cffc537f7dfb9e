import BranchPipeline.Proofs.Prediction.HistoryRepair

namespace BranchPipeline
namespace Gshare

open Attempt

/-!
# The index that a prediction and its outcome share

A prediction mixes its address with the history as it stands, which other
predictions have already been shifted into.  The outcome of the branch comes
later, when these have been confirmed and further predictions have been made;
it mixes the address with the confirmed history, which is rebuilt from the
queue.  Both are the same directions.  A confirmation takes the oldest
prediction off the queue and makes its direction the latest confirmed one, so
when all older predictions have been confirmed, what was the history has become
the confirmed history, however many predictions are outstanding.
-/

/-- The direction that a table gives for an index. -/
def directionAt (directions : DirectionTable Bool) (index : UInt64) : Bool :=
  ((directions.get? index).map (·.certainty)).getD true

/-- A prediction for the source is queued with the direction that is found at
the index, whatever the direction table holds. -/
def Consults (gshare : Gshare) (source index : UInt64) : Prop :=
  ∀ directions : DirectionTable Bool, ∃ next after evicted,
    (predict source).Yields { gshare with directions } next after ∧
    after.outstanding.toList =
      gshare.outstanding.toList ++ [⟨evicted, source, directionAt directions index⟩]

/-- An outcome of the source is learned at the index, whatever the outcome is and
whatever the direction table holds. -/
def Trains (gshare : Gshare) (source index : UInt64) : Prop :=
  ∀ (directions : DirectionTable Bool) (destination : UInt64) (taken : Bool), ∃ after,
    (update source destination taken).Yields { gshare with directions } () after ∧
    after.directions = directions.learn ⟨index, taken⟩

/-- What has happened since a state: predictions that did not fail, and so many
outcomes, each of which confirmed the prediction that was the oldest then. -/
inductive Confirms (first : Gshare) : Nat → Gshare → Prop
  | start : Confirms first 0 first
  | predict {count : Nat} {before after : Gshare} {source next : UInt64}
      (earlier : Confirms first count before)
      (predicts : (predict source).Yields before next after) : Confirms first count after
  | update {count : Nat} {before after : Gshare} {oldest : Outstanding} {destination : UInt64}
      (earlier : Confirms first count before)
      (waits : before.outstanding.oldest? = some oldest)
      (updates : (update oldest.source destination oldest.predicted).Yields before () after) :
      Confirms first (count + 1) after

variable {before after first reached : Gshare} {confirmed : List Bool} {source : UInt64}

/-- The outstanding predictions without what they evicted, the oldest first. -/
def predictions (gshare : Gshare) : List (UInt64 × Bool) :=
  gshare.outstanding.toList.map fun outstanding => (outstanding.source, outstanding.predicted)

theorem map_snd_predictions (gshare : Gshare) :
    gshare.predictions.map (·.2) = gshare.outstanding.toList.map (·.predicted) := by
  rw [predictions, List.map_map]
  rfl

theorem length_predictions (gshare : Gshare) :
    gshare.predictions.length = gshare.outstanding.toList.length :=
  List.length_map _

/-! ## Consulting -/

/-- A prediction for a known address is queued behind all others, with the
direction found at the index that the address and the history give. -/
theorem queued_of_predict {target : TargetEntry} {next : UInt64}
    (known : before.targets.get? source = some target)
    (predicts : (predict source).Yields before next after) :
    ∃ evicted, after.outstanding.toList = before.outstanding.toList ++ [⟨evicted, source,
      directionAt before.directions (directionIndex before.history.toList source)⟩] := by
  simp only [predict, queue, yields_bind, yields_get, and_assoc, exists_and_left, exists_eq_left,
    known, yields_ofExcept, yields_set, yields_pure] at predicts
  rcases predicts with ⟨⟨evicted, history⟩, -, _, _, _, ⟨outstanding, added, rfl⟩, -, rfl⟩
  exact ⟨evicted, Ring.toList_of_add added⟩

/-- A prediction leaves those before it in the queue. -/
theorem predictions_of_predict {next : UInt64}
    (predicts : (predict source).Yields before next after) :
    ∃ later, after.predictions = before.predictions ++ later := by
  cases known : before.targets.get? source with
  | none =>
    simp only [predict, yields_bind, yields_get, and_assoc, exists_and_left, exists_eq_left,
      known, yields_pure] at predicts
    rcases predicts with ⟨-, rfl⟩
    exact ⟨[], (List.append_nil _).symm⟩
  | some target =>
    rcases queued_of_predict known predicts with ⟨evicted, queued⟩
    exact ⟨_, by rw [predictions, queued, List.map_append, ← predictions]⟩

/-- As long as the queue has room, a known address is predicted, and queued
behind the others. -/
theorem Recalls.exists_queued (recalls : before.Recalls confirmed)
    (known : before.targets.get? source ≠ none)
    (room : before.outstanding.toList.length < before.outstanding.capacity) :
    ∃ next after, (Gshare.predict source).Yields before next after ∧ after.Recalls confirmed ∧
      SameSizes before after ∧ after.targets = before.targets ∧
      ∃ evicted, after.outstanding.toList = before.outstanding.toList ++ [⟨evicted, source,
        directionAt before.directions (directionIndex before.history.toList source)⟩] := by
  rcases exists_predict recalls source (fun _ => room) with
    ⟨next, after, predicts, recalled, effect, -⟩
  rcases Option.ne_none_iff_exists'.mp known with ⟨target, found⟩
  exact ⟨next, after, predicts, recalled, effect.sizes, effect.targets,
    queued_of_predict found predicts⟩

/-- What the direction table holds decides nothing but directions. -/
theorem Recalls.withDirections (recalls : before.Recalls confirmed)
    (directions : DirectionTable Bool) : ({ before with directions } : Gshare).Recalls confirmed :=
  ⟨recalls.positive, recalls.full, recalls.balance⟩

theorem Recalls.consults {next : UInt64} (recalls : before.Recalls confirmed)
    (known : before.targets.get? source ≠ none)
    (predicts : (Gshare.predict source).Yields before next after) :
    before.Consults source (directionIndex before.history.toList source) := by
  intro directions
  have room := room_of_predict predicts known
  rcases (recalls.withDirections directions).exists_queued known room with
    ⟨next, after, ends, -, -, -, evicted, queued⟩
  exact ⟨next, after, evicted, ends, queued⟩

/-! ## Training -/

/-- The operation leaves the direction table alone. -/
abbrev KeepsDirections (directions : DirectionTable Bool)
    (operation : Attempt Gshare BufferFault Unit) : Prop :=
  operation.Keeps (fun gshare => gshare.directions = directions) fun _ => True

theorem keepsDirections_resetHistory (directions : DirectionTable Bool) (bits : List Bool) :
    KeepsDirections directions (resetHistory bits) := by
  refine keeps_get_bind fun before same => ?_
  simp only [ends_bind, ends_ofExcept, ends_set]
  exact ⟨fun _ _ => same, fun _ _ => ⟨trivial, same⟩⟩

theorem keepsDirections_dropOutstanding (directions : DirectionTable Bool) :
    KeepsDirections directions dropOutstanding :=
  keeps_modify fun _ same => same

theorem keepsDirections_queue (directions : DirectionTable Bool) (prediction : Outstanding) :
    KeepsDirections directions (queue prediction) := by
  refine keeps_get_bind fun before same => ?_
  simp only [ends_bind, ends_ofExcept, ends_set]
  exact ⟨fun _ _ => same, fun _ _ => ⟨trivial, same⟩⟩

theorem keepsDirections_rebuild (directions : DirectionTable Bool) (taken : Bool)
    (confirmed : List Bool) : KeepsDirections directions (update.rebuild taken confirmed) :=
  keeps_get_bind fun before same =>
    (keepsDirections_resetHistory directions _).bind
      (fun _ => keepsDirections_dropOutstanding directions) before same

theorem keepsDirections_insertConfirmed (directions : DirectionTable Bool) (taken : Bool)
    (confirmed : List Bool) : KeepsDirections directions (insertConfirmed confirmed taken) := by
  refine keeps_get_bind fun before same => ?_
  refine (keepsDirections_resetHistory directions _).bind (fun _ => ?_) before same
  refine (keepsDirections_dropOutstanding directions).bind fun _ => ?_
  exact keeps_forM fun prediction _ => keepsDirections_queue directions prediction

/-- An outcome is learned at the index that its address and the confirmed
history give, on each of its ways. -/
theorem directions_of_update {destination : UInt64} {taken : Bool}
    (updates : (update source destination taken).Yields before () after) :
    after.directions =
      before.directions.learn ⟨directionIndex before.confirmed source, taken⟩ := by
  simp only [update, yields_bind, yields_get, yields_modify, and_assoc, exists_and_left,
    exists_eq_left, exists_const] at updates
  generalize learned : before.learn (directionIndex before.confirmed source) source destination
    taken = middle at updates
  have here : middle.directions =
      before.directions.learn ⟨directionIndex before.confirmed source, taken⟩ := by
    rw [← learned]
    rfl
  split at updates
  · split at updates
    · rw [yields_set] at updates
      rw [updates]
      exact here
    · exact (keepsDirections_rebuild _ taken before.confirmed middle here).1 _ _ updates
  · split at updates
    · exact (keepsDirections_rebuild _ taken before.confirmed middle here).1 _ _ updates
    · exact (keepsDirections_insertConfirmed _ taken before.confirmed middle here).1 _ _ updates

theorem Recalls.trains (recalls : before.Recalls confirmed) (source : UInt64) :
    before.Trains source (directionIndex confirmed source) := by
  intro directions destination taken
  have same := recalls.withDirections directions
  rcases exists_update same source destination taken with ⟨after, updates, -, -⟩
  refine ⟨after, updates, ?_⟩
  rw [directions_of_update updates, same.confirmed_eq]

/-! ## Confirming -/

/-- An outcome that comes as the oldest prediction says takes that prediction
off the queue, and makes its direction the latest confirmed one. -/
theorem Recalls.confirm {oldest : Outstanding} {destination : UInt64}
    (recalls : before.Recalls confirmed) (waits : before.outstanding.oldest? = some oldest)
    (updates : (update oldest.source destination oldest.predicted).Yields before () after) :
    after.Recalls (recorded confirmed oldest.predicted) ∧
      before.predictions = (oldest.source, oldest.predicted) :: after.predictions := by
  rcases exists_update recalls oldest.source destination oldest.predicted with
    ⟨reached, ends, recalled, -⟩
  cases (updates.unique ends).2
  refine ⟨recalled, ?_⟩
  simp only [update, yields_bind, yields_get, yields_modify, and_assoc, exists_and_left,
    exists_eq_left, exists_const] at updates
  have filtered : (before.learn (directionIndex before.confirmed oldest.source) oldest.source
      destination oldest.predicted).outstanding.oldest?.filter
        (fun prediction => prediction.source == oldest.source) = some oldest := by
    show before.outstanding.oldest?.filter _ = some oldest
    rw [waits, Option.filter_some, if_pos (beq_self_eq_true _)]
  rw [filtered] at updates
  simp only [beq_self_eq_true, if_true, yields_set] at updates
  rw [Ring.oldest?_eq, List.head?_eq_some_iff] at waits
  rcases waits with ⟨younger, queue⟩
  have rest : after.outstanding.toList = younger := by
    rw [updates]
    show before.outstanding.remove.2.toList = younger
    rw [Ring.toList_remove, queue, List.tail_cons]
  rw [predictions, predictions, rest, queue, List.map_cons]

/-- Confirmations take predictions off the front of the queue and hand their
directions over to the confirmed history; predictions go to its back. -/
theorem Recalls.confirms {count : Nat} (recalls : first.Recalls confirmed)
    (confirms : first.Confirms count reached) :
    ∃ settled later, settled.length = count ∧
      first.predictions ++ later = settled ++ reached.predictions ∧
      reached.Recalls ((confirmed ++ settled.map (·.2)).drop count) := by
  induction confirms with
  | start =>
    refine ⟨[], [], rfl, List.append_nil _, ?_⟩
    rwa [List.map_nil, List.append_nil, List.drop_zero]
  | predict earlier predicts inductionHypothesis =>
    rcases inductionHypothesis with ⟨settled, later, length, whole, recalled⟩
    rcases predictions_of_predict predicts with ⟨more, queued⟩
    refine ⟨settled, later ++ more, length, ?_, (recalled.predict predicts).1⟩
    rw [queued, ← List.append_assoc, whole, List.append_assoc]
  | @update count before after oldest destination earlier waits updates inductionHypothesis =>
    rcases inductionHypothesis with ⟨settled, later, length, whole, recalled⟩
    rcases recalled.confirm waits updates with ⟨next, queue⟩
    refine ⟨settled ++ [(oldest.source, oldest.predicted)], later, ?_, ?_, ?_⟩
    · rw [List.length_append, length, List.length_singleton]
    · rw [whole, queue, List.append_assoc, List.singleton_append]
    · rw [recorded, latest_append_singleton] at next
      rw [List.map_append, List.map_singleton, ← List.append_assoc, ← List.drop_drop,
        List.drop_append_of_le_length]
      · exact next
      · rw [List.length_append, List.length_map, length]
        exact Nat.le_add_left _ _

/-- With all older predictions confirmed, the history in front of a prediction
has become the confirmed one. -/
theorem Recalls.history_eq (recalls : before.Recalls confirmed) :
    (confirmed ++ before.predictions.map (·.2)).drop before.predictions.length =
      before.history.toList := by
  have evicted : (before.outstanding.toList.map (·.evicted)).length =
      before.predictions.length := by
    rw [length_predictions, List.length_map]
  rw [map_snd_predictions, ← recalls.balance, ← evicted, List.drop_left]

/-- An outcome trains what its prediction consulted.  From a state that calls
without a failing prediction reach, a prediction for a known address is made.
Further predictions follow, and outcomes that confirm the oldest prediction,
until those before this one have all been confirmed.  It then is the oldest, and
its own outcome, whatever it is, is learned at the very index at which the
prediction found its direction. -/
theorem trains_consulted {configuration : Configuration} {start before after reached : Gshare}
    {calls : List Call} {source next : UInt64} {count : Nat}
    (made : create configuration = .ok start) (reaches : start.Reaches calls before)
    (known : before.targets.get? source ≠ none)
    (predicts : (predict source).Yields before next after)
    (confirms : after.Confirms count reached)
    (turn : count = before.outstanding.toList.length) :
    let index := directionIndex before.history.toList source
    before.Consults source index ∧
    (∃ oldest, reached.outstanding.oldest? = some oldest ∧ oldest.source = source ∧
      oldest.predicted = directionAt before.directions index) ∧
    reached.Trains source index := by
  intro index
  have recalls := reaches.recalls made
  rcases Option.ne_none_iff_exists'.mp known with ⟨target, found⟩
  rcases queued_of_predict found predicts with ⟨evicted, queued⟩
  have queue : after.predictions =
      before.predictions ++ [(source, directionAt before.directions index)] := by
    rw [predictions, queued, List.map_append]
    rfl
  rcases (recalls.predict predicts).1.confirms confirms with
    ⟨settled, later, length, whole, recalled⟩
  have older : before.predictions.length = settled.length := by
    rw [length, turn, length_predictions]
  rw [queue, List.append_assoc] at whole
  rcases List.append_inj whole older with ⟨rfl, front⟩
  refine ⟨recalls.consults known predicts, ?_, ?_⟩
  · rw [Ring.oldest?_eq]
    rw [predictions, List.singleton_append] at front
    rcases List.map_eq_cons_iff.mp front.symm with ⟨oldest, younger, waiting, same, -⟩
    rw [Prod.mk.injEq] at same
    exact ⟨oldest, by rw [waiting, List.head?_cons], same.1, same.2⟩
  · rw [← length, recalls.history_eq] at recalled
    exact recalled.trains source

/-- Two branches are known to a history of a single direction.  Each of them is
predicted once, then the first one again; the two older predictions are
confirmed, with another prediction between them. -/
theorem trains_consulted_beyond_history :
    ∃ start before after reached next,
      create { historyLength := 1 } = .ok start ∧
      start.Reaches [.update 10 20 true, .update 11 30 false, .predict 10, .predict 11] before ∧
      before.history.toList.length < before.outstanding.toList.length ∧
      (predict 10).Yields before next after ∧ after.Confirms 2 reached ∧
      before.Consults 10 (directionIndex before.history.toList 10) ∧
      reached.Trains 10 (directionIndex before.history.toList 10) := by
  have created : ∃ start, create { historyLength := 1 } = .ok start ∧
      ((start.targets.learn ⟨10, 20⟩).learn ⟨11, 30⟩).get? 10 ≠ none ∧
      ((start.targets.learn ⟨10, 20⟩).learn ⟨11, 30⟩).get? 11 ≠ none :=
    ⟨_, rfl, by decide, by decide⟩
  rcases created with ⟨start, made, knownTen, knownEleven⟩
  rcases recalls_of_create made with ⟨initial, -, slots, empty⟩
  rcases exists_update initial 10 20 true with ⟨one, firstUpdate, oneRecalls, oneEffect⟩
  rcases exists_update oneRecalls 11 30 false with ⟨two, secondUpdate, twoRecalls, twoEffect⟩
  have twoTargets := twoEffect.targets
  rw [oneEffect.targets] at twoTargets
  have settled : two.outstanding.toList = [] := List.map_eq_nil_iff.mp
    (twoEffect.settled (oneEffect.settled (List.map_eq_nil_iff.mpr empty)))
  have twoSlots : two.outstanding.capacity = 32 :=
    twoEffect.sizes.outstanding.trans (oneEffect.sizes.outstanding.trans slots)
  -- three predictions fill the queue, two of them older than the one looked at
  have first : two.targets.get? 10 ≠ none := by
    rw [twoTargets]
    exact knownTen
  rcases twoRecalls.exists_queued first
    (by rw [settled, twoSlots]; decide) with
    ⟨_, three, firstPredict, threeRecalls, threeSizes, threeTargets, _, threeQueue⟩
  rw [settled, List.nil_append] at threeQueue
  have threeSlots := threeSizes.outstanding.trans twoSlots
  have second : three.targets.get? 11 ≠ none := by
    rw [threeTargets, twoTargets]
    exact knownEleven
  rcases threeRecalls.exists_queued second
    (by rw [threeQueue, threeSlots]; exact (by decide : 1 < 32)) with
    ⟨_, before, secondPredict, beforeRecalls, beforeSizes, beforeTargets, _, beforeQueue⟩
  rw [threeQueue, List.singleton_append] at beforeQueue
  have beforeSlots := beforeSizes.outstanding.trans threeSlots
  have known : before.targets.get? 10 ≠ none := by
    rw [beforeTargets, threeTargets]
    exact first
  rcases beforeRecalls.exists_queued known
    (by rw [beforeQueue, beforeSlots]; exact (by decide : 2 < 32)) with
    ⟨next, after, predicts, afterRecalls, afterSizes, -, _, afterQueue⟩
  rw [beforeQueue] at afterQueue
  -- the two older ones are confirmed, with one more prediction between them
  rcases exists_update afterRecalls 10 20 _ with ⟨four, firstConfirmed, fourRecalls, fourEffect⟩
  have firstWaits := (Ring.oldest?_eq after.outstanding).trans (congrArg List.head? afterQueue)
  have fourQueue := (afterRecalls.confirm firstWaits firstConfirmed).2
  rw [predictions, afterQueue] at fourQueue
  have fourLength := congrArg List.length (List.cons.inj fourQueue).2
  rw [length_predictions] at fourLength
  have fourSlots := fourEffect.sizes.outstanding.trans (afterSizes.outstanding.trans beforeSlots)
  rcases exists_predict fourRecalls 11
    (fun _ => by rw [← fourLength, fourSlots]; exact (by decide : 2 < 32)) with
    ⟨_, five, between, fiveRecalls, -⟩
  rcases predictions_of_predict between with ⟨_, fiveQueue⟩
  rw [← (List.cons.inj fourQueue).2] at fiveQueue
  rcases List.map_eq_cons_iff.mp fiveQueue with ⟨oldest, younger, waiting, -, -⟩
  have secondWaits := (Ring.oldest?_eq five.outstanding).trans (congrArg List.head? waiting)
  rcases exists_update fiveRecalls oldest.source 30 oldest.predicted with
    ⟨reached, secondConfirmed, -⟩
  have confirms : after.Confirms 2 reached :=
    .update (.predict (.update .start firstWaits firstConfirmed) between) secondWaits
      secondConfirmed
  have reaches : start.Reaches
      [.update 10 20 true, .update 11 30 false, .predict 10, .predict 11] before := by
    have one : start.Reaches [.update 10 20 true] one := .call .start firstUpdate (fun _ => rfl)
    have two : start.Reaches [.update 10 20 true, .update 11 30 false] two :=
      .call one secondUpdate (fun _ => rfl)
    have three : start.Reaches [.update 10 20 true, .update 11 30 false, .predict 10] three :=
      .call two (yields_bind.mpr ⟨_, three, firstPredict, rfl⟩) (fun _ => rfl)
    exact .call three (yields_bind.mpr ⟨_, before, secondPredict, rfl⟩) (fun _ => rfl)
  have trained := trains_consulted made reaches known predicts confirms (by rw [beforeQueue]; rfl)
  refine ⟨start, before, after, reached, next, made, reaches, ?_, predicts, confirms, trained.1,
    trained.2.2⟩
  rw [(history_repaired made reaches).1, beforeQueue]
  exact (by decide : 1 < 2)
end Gshare
end BranchPipeline
