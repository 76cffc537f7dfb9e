import BranchPipeline.Proofs.Pipeline.CycleCount
import BranchPipeline.Proofs.Pipeline.Origin

namespace BranchPipeline

/-!
# Every fetch is decoded once

As long as the pipeline is not emptied, fetch and decode take turns.  An
instruction that has been fetched is pending until it is decoded, and nothing is
fetched before that.  Decode may have to wait for room; it goes on holding the
same instruction then, and fetch waits with it.  Emptying the pipeline drops the
pending instruction and sends fetch to where execution goes on.

The turns are first described by themselves, as two lists that grow by turns,
and then found in a run.
-/

/-! ## Taking turns -/

theorem getElem?_append_singleton {α : Type} {items : List α} {item found : α} {place : Nat}
    (listed : (items ++ [item])[place]? = some found) :
    items[place]? = some found ∨ (place = items.length ∧ item = found) := by
  rcases Nat.lt_or_ge place items.length with inside | outside
  · rw [List.getElem?_append_left inside] at listed
    exact Or.inl listed
  · rw [List.getElem?_append_right outside, List.getElem?_singleton] at listed
    split at listed
    · injection listed with same
      exact Or.inr ⟨by omega, same⟩
    · cases listed

/-- The lists are what has been fetched and what has been decoded, each with the
number of its cycle; what has been fetched but not been decoded is pending. -/
inductive Alternate : List (Nat × Fetched) → List (Nat × Decoded) → Option Fetched → Prop
  | start : Alternate [] [] none
  | fetched {fetches : List (Nat × Fetched)} {decodes : List (Nat × Decoded)} {cycle : Nat}
      {next : Fetched} (settled : Alternate fetches decodes none)
      (past : ∀ decode ∈ decodes, decode.1 ≤ cycle) :
      Alternate (fetches ++ [(cycle, next)]) decodes (some next)
  | decoded {fetches : List (Nat × Fetched)} {decodes : List (Nat × Decoded)} {cycle : Nat}
      {pending : Fetched} {next : Decoded} (waits : Alternate fetches decodes (some pending))
      (past : ∀ fetch ∈ fetches, fetch.1 < cycle) (same : next.location = pending.location) :
      Alternate fetches (decodes ++ [(cycle, next)]) none

namespace Alternate

variable {fetches : List (Nat × Fetched)} {decodes : List (Nat × Decoded)}
  {pending : Option Fetched}

theorem length_eq (alternate : Alternate fetches decodes pending) :
    fetches.length = decodes.length + pending.toList.length := by
  induction alternate with
  | start => rfl
  | fetched settled past inductionHypothesis =>
    rw [List.length_append, inductionHypothesis]
    rfl
  | decoded waits past same inductionHypothesis =>
    rw [List.length_append, inductionHypothesis]
    rfl

/-- What is pending was fetched last. -/
theorem exists_last {fetched : Fetched} (alternate : Alternate fetches decodes (some fetched)) :
    ∃ cycle, fetches[decodes.length]? = some (cycle, fetched) := by
  cases alternate with
  | fetched settled past =>
    rename_i earlier cycle
    have lengths : earlier.length = decodes.length := settled.length_eq
    exact ⟨cycle, by rw [← lengths, List.getElem?_concat_length]⟩

/-- What is decoded in some place was fetched in that place before, and the next
fetch does not come earlier. -/
theorem exists_fetch {place cycle : Nat} {decoded : Decoded}
    (alternate : Alternate fetches decodes pending)
    (found : decodes[place]? = some (cycle, decoded)) :
    ∃ earlier fetched, fetches[place]? = some (earlier, fetched) ∧
      decoded.location = fetched.location ∧ earlier < cycle ∧
      ∀ later next, fetches[place + 1]? = some (later, next) → cycle ≤ later := by
  induction alternate with
  | start => cases found
  | fetched settled past inductionHypothesis =>
    rcases inductionHypothesis found with ⟨earlier, source, here, same, before, next⟩
    refine ⟨earlier, source, ?_, same, before, ?_⟩
    · rw [List.getElem?_append_left (List.getElem?_eq_some_iff.mp here).1]
      exact here
    · intro later other behind
      rcases getElem?_append_singleton behind with behind | ⟨-, new⟩
      · exact next later other behind
      · cases new
        exact past _ (List.mem_of_getElem? found)
  | decoded waits past same inductionHypothesis =>
    rcases getElem?_append_singleton found with found | ⟨rfl, new⟩
    · exact inductionHypothesis found
    · cases new
      -- what is pending was fetched last, so no other fetch can stand behind it
      rcases waits.exists_last with ⟨earlier, last⟩
      refine ⟨earlier, _, last, same, past _ (List.mem_of_getElem? last), ?_⟩
      intro later other behind
      have lengths := waits.length_eq
      have inside := (List.getElem?_eq_some_iff.mp behind).1
      rw [Option.toList_some, List.length_singleton] at lengths
      omega

end Alternate

/-! ## What cycles fetch and decode -/

/-- What was fetched, each with the number of its cycle. -/
def fetchesIn (results : List (CycleTrace × Flow)) : List (Nat × Fetched) :=
  results.filterMap fun result => result.1.fetched.map fun fetched => (result.1.cycle, fetched)

/-- What was decoded, each with the number of its cycle. -/
def decodesIn (results : List (CycleTrace × Flow)) : List (Nat × Decoded) :=
  results.filterMap fun result => result.1.decoded.map fun decoded => (result.1.cycle, decoded)

/-- Whether the cycle emptied the pipeline, for a mispredicted branch or because
the program has ended. -/
def flushes (result : CycleTrace × Flow) : Bool :=
  result.1.mispredicts || result.2 == .exit

/-- The results after the latest flush. -/
def sinceFlush (results : List (CycleTrace × Flow)) : List (CycleTrace × Flow) :=
  (results.reverse.takeWhile fun result => !flushes result).reverse

def latestFlush (results : List (CycleTrace × Flow)) : Option (CycleTrace × Flow) :=
  results.reverse.find? flushes

section

variable {results : List (CycleTrace × Flow)} {result : CycleTrace × Flow}

theorem fetchesIn_append :
    fetchesIn (results ++ [result]) = fetchesIn results ++
      (result.1.fetched.map fun fetched => (result.1.cycle, fetched)).toList := by
  rw [fetchesIn, List.filterMap_append, fetchesIn]
  cases found : result.1.fetched <;> simp [found]

theorem decodesIn_append :
    decodesIn (results ++ [result]) = decodesIn results ++
      (result.1.decoded.map fun decoded => (result.1.cycle, decoded)).toList := by
  rw [decodesIn, List.filterMap_append, decodesIn]
  cases found : result.1.decoded <;> simp [found]

theorem sinceFlush_append :
    sinceFlush (results ++ [result]) =
      if flushes result then [] else sinceFlush results ++ [result] := by
  cases flushed : flushes result <;> simp [sinceFlush, flushed]

theorem latestFlush_append :
    latestFlush (results ++ [result]) =
      if flushes result then some result else latestFlush results := by
  cases flushed : flushes result <;> simp [latestFlush, flushed]

end

namespace Processor

variable {before after : Processor} {stock reached : Stock}

/-- What a cycle does to the instruction that has been fetched but not been
decoded. -/
inductive Hands (stock : Stock) (trace : CycleTrace) (reached : Stock) : Prop
  | fetched {next : Fetched} (settled : stock.latch = none) (decodes : trace.decoded = none)
      (fetches : trace.fetched = some next) (latch : reached.latch = some next)
      (aimed : next.location = stock.position) (flushless : trace.mispredicts = false)
  | passed {pending next : Fetched} {decoded : Decoded} (waits : stock.latch = some pending)
      (decodes : trace.decoded = some decoded) (same : decoded.location = pending.location)
      (fetches : trace.fetched = some next) (latch : reached.latch = some next)
      (flushless : trace.mispredicts = false)
  | held {pending : Fetched} (waits : stock.latch = some pending) (decodes : trace.decoded = none)
      (fetches : trace.fetched = none) (latch : reached.latch = some pending)
      (flushless : trace.mispredicts = false)

theorem Supplies.hands {fetched : Fetched} {decoded : Option Decoded} {result : Option Fetched}
    {present : Stock} {trace : CycleTrace}
    (supplies : Supplies before present fetched decoded result after reached)
    (waits : stock.latch = some fetched) (same : present.latch = stock.latch)
    (decodes : trace.decoded = decoded) (fetches : trace.fetched = result)
    (flushless : trace.mispredicts = false) : Hands stock trace reached := by
  cases supplies with
  | issued issues fetching => exact .passed waits decodes issues.location fetches rfl flushless
  | deferred defers => exact .held waits decodes fetches (same.trans waits) flushless

/-- A cycle either goes on with the pending instruction, or empties the pipeline
and does nothing else in its last two stages. -/
theorem Turns.hands_or_flushes {trace : CycleTrace} (turns : Turns before stock trace after reached)
    (stocked : before.Stocked stock) (running : before.running = true) :
    (Hands stock trace reached ∧ after.running = true) ∨
    (trace.decoded = none ∧ trace.fetched = none ∧
      (after.running = true → trace.mispredicts = true ∧ reached.latch = none ∧
        ∀ branch, trace.branch = some branch → reached.position = branch.target)) := by
  cases turns with
  | refetched idle lost fetches =>
    have asleep : before.predictor.stalled = true := by rw [stocked.asleep, lost]; rfl
    have aimed := (fetches.predictor_of_stalled asleep).1
    exact Or.inl ⟨.fetched lost rfl rfl rfl aimed rfl, fetches.course.running.trans running⟩
  | refilled idle latch supplies =>
    exact Or.inl ⟨supplies.hands latch rfl rfl rfl rfl, supplies.course.running.trans running⟩
  | acted packets front latch plain acts supplies =>
    exact Or.inl ⟨supplies.hands latch rfl rfl rfl rfl,
      (supplies.course.running.trans acts.running).trans running⟩
  | confirmed packets front latch branches right confirms supplies =>
    exact Or.inl ⟨supplies.hands latch rfl rfl rfl rfl,
      (supplies.course.running.trans confirms.running).trans running⟩
  | redirected packets front branches wrong redirects =>
    refine Or.inr ⟨rfl, rfl, fun _ => ⟨rfl, rfl, ?_⟩⟩
    rintro branch ⟨⟩
    rfl
  | exited packets front calls exits =>
    refine Or.inr ⟨rfl, rfl, fun still => ?_⟩
    cases exits.running.symm.trans still

section

variable {fetches : List (Nat × Fetched)} {decodes : List (Nat × Decoded)} {trace : CycleTrace}

/-- A cycle lets fetch and decode take their next turns. -/
theorem Hands.alternate (hands : Hands stock trace reached)
    (alternate : Alternate fetches decodes stock.latch)
    (fetched : ∀ fetch ∈ fetches, fetch.1 < trace.cycle)
    (decoded : ∀ decode ∈ decodes, decode.1 < trace.cycle) :
    Alternate (fetches ++ (trace.fetched.map fun fetched => (trace.cycle, fetched)).toList)
      (decodes ++ (trace.decoded.map fun decoded => (trace.cycle, decoded)).toList)
      reached.latch := by
  cases hands with
  | fetched settled decodes fetches latch aimed flushless =>
    rw [settled] at alternate
    rw [decodes, fetches, latch, Option.map_none, Option.toList_none, List.append_nil]
    exact .fetched alternate fun decode member => Nat.le_of_lt (decoded decode member)
  | passed waits decodes same fetches latch flushless =>
    rw [waits] at alternate
    rw [decodes, fetches, latch]
    refine .fetched (.decoded alternate fetched same) ?_
    intro decode member
    rcases List.mem_append.mp member with member | member
    · exact Nat.le_of_lt (decoded decode member)
    · have latest := List.mem_singleton.mp member
      exact Nat.le_of_eq (congrArg Prod.fst latest)
  | held waits decodes fetches latch flushless =>
    rw [waits] at alternate
    rw [decodes, fetches, latch, Option.map_none, Option.map_none, Option.toList_none,
      Option.toList_none, List.append_nil, List.append_nil]
    exact alternate

/-- The first fetch goes where fetch stood before it. -/
theorem Hands.first_eq (hands : Hands stock trace reached)
    (alternate : Alternate fetches decodes stock.latch) :
    (((fetches ++ (trace.fetched.map fun fetched => (trace.cycle, fetched)).toList).head?).map
        (·.2.location)).getD reached.position =
      (fetches.head?.map (·.2.location)).getD stock.position := by
  cases fetches with
  | cons first later => rfl
  | nil =>
    cases hands with
    | fetched settled decodes fetches latch aimed flushless =>
      rw [fetches]
      exact aimed
    | passed waits | held waits =>
      -- something is pending, so something has been fetched
      rw [waits] at alternate
      rcases alternate.exists_last with ⟨cycle, last⟩
      cases last

end

/-! ## A run -/

/-- Since the latest flush fetch and decode have taken turns, and the first fetch
went, or will go, where that flush has sent it. -/
structure InTurn (results : List (CycleTrace × Flow)) (processor : Processor) (stock : Stock) :
    Prop where
  stocked : processor.Stocked stock
  alternate : Alternate (fetchesIn (sinceFlush results)) (decodesIn (sinceFlush results))
    stock.latch
  past : ∀ result ∈ sinceFlush results, result.1.cycle < processor.cycle
  aimed : ∀ result branch, latestFlush results = some result → result.1.branch = some branch →
    ((fetchesIn (sinceFlush results)).head?.map (·.2.location)).getD stock.position =
      branch.target

/-- What holds between two cycles of a run. -/
inductive Phase (results : List (CycleTrace × Flow)) (processor : Processor) : Prop
  | going {stock : Stock} (running : processor.running = true)
      (inTurn : InTurn results processor stock)
  | exited (stopped : processor.running = false) (stalled : processor.stalled = .initial)
      (emptied : sinceFlush results = [])

variable {results : List (CycleTrace × Flow)} {result : CycleTrace × Flow}

theorem exists_of_mem_fetchesIn {fetch : Nat × Fetched} (member : fetch ∈ fetchesIn results) :
    ∃ result ∈ results, result.1.cycle = fetch.1 := by
  rcases List.mem_filterMap.mp member with ⟨result, present, reported⟩
  rcases Option.map_eq_some_iff.mp reported with ⟨fetched, -, rfl⟩
  exact ⟨result, present, rfl⟩

theorem exists_of_mem_decodesIn {decode : Nat × Decoded} (member : decode ∈ decodesIn results) :
    ∃ result ∈ results, result.1.cycle = decode.1 := by
  rcases List.mem_filterMap.mp member with ⟨result, present, reported⟩
  rcases Option.map_eq_some_iff.mp reported with ⟨decoded, -, rfl⟩
  exact ⟨result, present, rfl⟩

theorem Hands.quiet {trace : CycleTrace} {flow : Flow} (hands : Hands stock trace reached)
    (proceeds : flow ≠ .exit) : flushes (trace, flow) = false := by
  have flushless : trace.mispredicts = false := by cases hands <;> assumption
  rw [flushes, flushless, Bool.false_or, beq_eq_false_iff_ne]
  exact proceeds

/-- The turns go on in a cycle that does not empty the pipeline. -/
theorem InTurn.handed (inTurn : InTurn results before stock) (hands : Hands stock result.1 reached)
    (quiet : flushes result = false) (numbered : result.1.cycle = before.cycle)
    (counted : after.cycle = before.cycle + 1) (stocked : after.Stocked reached) :
    InTurn (results ++ [result]) after reached := by
  have later : sinceFlush (results ++ [result]) = sinceFlush results ++ [result] := by
    rw [sinceFlush_append, quiet, if_neg Bool.false_ne_true]
  refine ⟨stocked, ?_, ?_, ?_⟩
  · rw [later, fetchesIn_append, decodesIn_append]
    apply hands.alternate inTurn.alternate
    · intro fetch member
      rcases exists_of_mem_fetchesIn member with ⟨earlier, present, same⟩
      rw [← same, numbered]
      exact inTurn.past earlier present
    · intro decode member
      rcases exists_of_mem_decodesIn member with ⟨earlier, present, same⟩
      rw [← same, numbered]
      exact inTurn.past earlier present
  · intro earlier member
    rw [later] at member
    rw [counted]
    rcases List.mem_append.mp member with member | member
    · exact Nat.lt_succ_of_lt (inTurn.past earlier member)
    · rw [List.mem_singleton.mp member, numbered]
      exact Nat.lt_succ_self _
  · intro flush branch latest resolved
    rw [latestFlush_append, quiet, if_neg Bool.false_ne_true] at latest
    rw [later, fetchesIn_append, hands.first_eq inTurn.alternate]
    exact inTurn.aimed flush branch latest resolved

/-- After a cycle that has emptied the pipeline the turns start again. -/
theorem inTurn_of_flush (flushed : flushes result = true) (stocked : after.Stocked reached)
    (latch : reached.latch = none)
    (target : ∀ branch, result.1.branch = some branch → reached.position = branch.target) :
    InTurn (results ++ [result]) after reached := by
  have fresh : sinceFlush (results ++ [result]) = [] := by
    rw [sinceFlush_append, if_pos flushed]
  refine ⟨stocked, ?_, ?_, ?_⟩
  · rw [fresh, latch]
    exact .start
  · rw [fresh]
    exact fun _ member => nomatch member
  · intro flush branch latest resolved
    rw [latestFlush_append, if_pos flushed] at latest
    cases latest
    rw [fresh]
    exact target branch resolved

theorem Phase.next (phase : Phase results before) (ran : before.runCycle = (.ok result, after)) :
    Phase (results ++ [result]) after ∧
      (flushes result = true → result.1.fetched = none ∧ result.1.decoded = none) := by
  cases phase with
  | going running inTurn =>
    rcases result with ⟨trace, flow⟩
    rcases inTurn.stocked.exists_turn running ran with ⟨reached, turns, ended⟩
    have accounts := turns.accounts inTurn.stocked running
    rcases turns.hands_or_flushes inTurn.stocked running with
        ⟨hands, still⟩ | ⟨decodes, fetches, emptied⟩
    · have quiet : flushes (trace, flow) = false := by
        apply hands.quiet
        intro exits
        cases still.symm.trans (ended.mp exits)
      have next := inTurn.handed hands quiet accounts.numbered accounts.counted
        (turns.stocked inTurn.stocked still)
      refine ⟨.going still next, ?_⟩
      rw [quiet]
      exact Bool.noConfusion
    · refine ⟨?_, fun _ => ⟨fetches, decodes⟩⟩
      -- a mispredicted branch lets the program run on, the exit does not
      cases turns.condition inTurn.stocked running with
      | going still stocked =>
        rcases emptied still with ⟨missed, latch, target⟩
        have flushed : flushes (trace, flow) = true := by rw [flushes, missed, Bool.true_or]
        exact .going still (inTurn_of_flush flushed (turns.stocked inTurn.stocked still) latch
          target)
      | exited stopped holds stalled =>
        have flushed : flushes (trace, flow) = true := by
          rw [flushes, ended.mpr stopped, beq_self_eq_true, Bool.or_true]
        exact .exited stopped stalled (by rw [sinceFlush_append, if_pos flushed])
  | exited stopped stalled emptied =>
    rw [runCycle_of_stopped stopped] at ran
    cases ran
    exact ⟨.exited stopped stalled (by rw [sinceFlush_append]; rfl), fun _ => ⟨rfl, rfl⟩⟩

section

variable {configuration : Configuration} {kind : PredictorKind} {executable : Executable}
  {output : Output} {start : Processor}

theorem Loaded.phase_of_callCycles {count : Nat} {after : Processor}
    (loaded : Loaded configuration kind executable output start)
    (called : start.callCycles count = (results.map .ok, after)) :
    Phase results after ∧ ∀ result ∈ results, flushes result = true →
      result.1.fetched = none ∧ result.1.decoded = none := by
  induction count generalizing results after with
  | zero =>
    injection called with none same
    rw [eq_comm, List.map_eq_nil_iff] at none
    subst none same
    refine ⟨.going loaded.running ⟨loaded.stocked, .start, ?_, ?_⟩, ?_⟩
    · exact fun _ member => nomatch member
    · exact fun _ _ lost => nomatch lost
    · exact fun _ member => nomatch member
  | succ count inductionHypothesis =>
    rcases callCycles_succ_ok.mp called with ⟨earlier, before, result, fewer, ran, rfl⟩
    rcases inductionHypothesis fewer with ⟨phase, still⟩
    rcases phase.next ran with ⟨next, quiet⟩
    refine ⟨next, ?_⟩
    intro other member
    rcases List.mem_append.mp member with member | member
    · exact still other member
    · rw [List.mem_singleton.mp member]
      exact quiet

/-- No fetch is lost and none is decoded twice.  Number the fetches and the
decodes since the latest flush, in any run in which no cycle fails.  Then each
decode takes the location of the fetch with its number, in a later cycle than
that fetch and not after the next fetch.  There are as many fetches as decodes,
or one more; decode is stalled unless there is one more.  If the flush was for a
branch, the first fetch is from where the branch goes on.  A cycle with a flush
itself neither fetches nor decodes. -/
theorem decoded_as_fetched {count : Nat} {reached : Processor}
    (loads : load configuration kind executable output = .ok start)
    (called : start.callCycles count = (results.map .ok, reached)) :
    (∀ place cycle decoded, (decodesIn (sinceFlush results))[place]? = some (cycle, decoded) →
      ∃ earlier fetched, (fetchesIn (sinceFlush results))[place]? = some (earlier, fetched) ∧
        decoded.location = fetched.location ∧ earlier < cycle ∧
        ∀ later next, (fetchesIn (sinceFlush results))[place + 1]? = some (later, next) →
          cycle ≤ later) ∧
    (decodesIn (sinceFlush results)).length ≤ (fetchesIn (sinceFlush results)).length ∧
    (fetchesIn (sinceFlush results)).length ≤ (decodesIn (sinceFlush results)).length + 1 ∧
    (reached.stalled.decode = false ↔
      (fetchesIn (sinceFlush results)).length = (decodesIn (sinceFlush results)).length + 1) ∧
    (∀ flush branch cycle fetched, latestFlush results = some flush →
      flush.1.branch = some branch →
      (fetchesIn (sinceFlush results))[0]? = some (cycle, fetched) →
        fetched.location = branch.target) ∧
    ∀ result ∈ results, flushes result = true →
      result.1.fetched = none ∧ result.1.decoded = none := by
  rcases (loaded_of_load loads).phase_of_callCycles called with ⟨phase, quiet⟩
  cases phase with
  | going running inTurn =>
    rename_i stock
    have lengths := inTurn.alternate.length_eq
    have few : stock.latch.toList.length ≤ 1 := by cases stock.latch <;> simp
    refine ⟨fun _ _ _ found => inTurn.alternate.exists_fetch found, by omega, by omega, ?_, ?_,
      quiet⟩
    · rw [inTurn.stocked.stalled, lengths]
      cases stock.latch <;> simp
    · intro flush branch cycle fetched latest resolved first
      have aimed := inTurn.aimed flush branch latest resolved
      rw [List.head?_eq_getElem?, first] at aimed
      exact aimed
  | exited stopped stalled emptied =>
    rw [emptied, stalled]
    refine ⟨?_, Nat.le_refl _, Nat.zero_le _, ?_, ?_, quiet⟩
    · exact fun _ _ _ lost => nomatch lost
    · exact ⟨fun awake => (nomatch awake), fun more => (nomatch more)⟩
    · exact fun _ _ _ _ _ _ lost => nomatch lost

end

/-- In the second round of the loop a branch has been mispredicted, and three
instructions have been fetched and decoded since.  The last of them held up
fetch for a cycle.  A fourth is pending, for lack of room. -/
theorem decoded_as_fetched_second_round :
    ∃ start results reached earlier fetched decoded first,
      load cramped .gshare threeRounds .accepting = .ok start ∧
      start.callCycles 18 = (results.map .ok, reached) ∧
      (decodesIn (sinceFlush results))[2]? = some (15, decoded) ∧
      (fetchesIn (sinceFlush results))[2]? = some (earlier, fetched) ∧
      decoded.location = fetched.location ∧ earlier < 15 ∧
      (fetchesIn (sinceFlush results)).length = (decodesIn (sinceFlush results)).length + 1 ∧
      (fetchesIn (sinceFlush results))[0]? = some (11, first) ∧ first.location = 3 := by
  have computed : (resultsLoaded cramped .gshare threeRounds .accepting 18).toOption.any
      (fun ends => decide (ends.2.stalled.decode = false ∧
        (decodesIn (sinceFlush ends.1))[2]?.map (·.1) = some 15 ∧
        (fetchesIn (sinceFlush ends.1))[0]?.map (·.1) = some 11 ∧
        (latestFlush ends.1).map (·.1.branch) = some (some ⟨5, 3, true, true⟩))) = true := by
    decide +kernel
  rcases exists_of_resultsLoaded computed with ⟨start, results, reached, loads, called, ends⟩
  rcases of_decide_eq_true ends with ⟨awake, third, first, latest⟩
  rcases Option.map_eq_some_iff.mp third with ⟨⟨_, decoded⟩, found, rfl⟩
  rcases Option.map_eq_some_iff.mp first with ⟨⟨_, fetched⟩, front, rfl⟩
  rcases Option.map_eq_some_iff.mp latest with ⟨flush, flushed, resolved⟩
  rcases decoded_as_fetched loads called with ⟨paired, -, -, pending, aimed, -⟩
  rcases paired 2 _ decoded found with ⟨earlier, source, here, same, before, -⟩
  exact ⟨start, results, reached, earlier, source, decoded, fetched, loads, called, found, here,
    same, before, pending.mp awake, front, aimed flush _ _ fetched flushed resolved front⟩

end Processor
end BranchPipeline
