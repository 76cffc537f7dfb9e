import BranchPipeline.Prediction.Table
import BranchPipeline.Proofs.Buffer.MapRefinement

namespace BranchPipeline

/-!
# Calls of a probe table

The calls of a table may follow each other in any order.  A table that started
empty answers each of them as a map of the same size does, provided that nobody
adds a key that is stored already: whoever wants that replaces the entry
instead.  What an entry's slot is worth to its user follows from the inversion
of a single call, which leaves the table alone or writes where a search has
ended.
-/

variable {ε : Type} [Keyed ε]

/-- One call with its argument. -/
inductive MapCall (ε : Type) where
  | get (key : UInt64)
  | contains (key : UInt64)
  | add (entry : ε)
  | update (entry : ε)
  | put (entry : ε)
  | remember (entry : ε)

/-- What a call gives back. -/
inductive MapAnswer (ε : Type) where
  | found (entry : Option ε)
  | known (yes : Bool)
  | remembered (yes : Bool)
  | done
  | failed (fault : BufferFault)
  deriving DecidableEq

/-- Whether a call that was to store an entry has not done so. -/
def MapAnswer.refuses : MapAnswer ε → Bool
  | remembered stored => !stored
  | failed _ => true
  | found _ | known _ | done => false

/-- The entry that a call with this answer has stored. -/
def MapCall.stored? : MapCall ε → MapAnswer ε → Option ε
  | add entry, .done | update entry, .done | put entry, .done => some entry
  | remember entry, .remembered true => some entry
  | _, _ => none

/-- Makes one call after the other, each in the state that the last one left. -/
def serveAll {σ : Type} (serve : σ → MapCall ε → MapAnswer ε × σ) (state : σ) :
    List (MapCall ε) → List (MapAnswer ε) × σ
  | [] => ([], state)
  | call :: calls =>
    let (answer, after) := serve state call
    let (answers, reached) := serveAll serve after calls
    (answer :: answers, reached)

/-! ## The answers of a map -/

namespace BoundedMap

/-- What a call asks of the map.  The name only occurs in messages. -/
def serve (name : String) (map : BoundedMap ε) : MapCall ε → MapAnswer ε × BoundedMap ε
  | .get key => (.found (map.lookup key), map)
  | .contains key => (.known (map.lookup key).isSome, map)
  | .update entry =>
    match map.lookup (Keyed.key entry), map.store? entry with
    | some _, some stored => (.done, stored)
    | _, _ => (.failed (.notFound name (Keyed.key entry)), map)
  | .add entry | .put entry =>
    match map.store? entry with
    | some stored => (.done, stored)
    | none => (.failed (.tableFull name map.capacity), map)
  | .remember entry =>
    match map.store? entry with
    | some stored => (.remembered true, stored)
    | none => (.remembered false, map)

/-- Every call that adds an entry finds its key absent. -/
def AddsNewKeys (name : String) (map : BoundedMap ε) : List (MapCall ε) → Prop
  | [] => True
  | call :: calls =>
    (∀ entry, call = .add entry → map.lookup (Keyed.key entry) = none) ∧
      AddsNewKeys name (map.serve name call).2 calls

/-- The last of the entries that the calls have stored under a key. -/
def lastStored (calls : List (MapCall ε)) (answers : List (MapAnswer ε)) (key : UInt64) :
    Option ε :=
  (List.zipWith MapCall.stored? calls answers).reverse.findSome?
    (Option.filter fun entry => Keyed.key entry == key)

theorem lookup_serve (name : String) (map : BoundedMap ε) (call : MapCall ε) (key : UInt64) :
    (map.serve name call).2.lookup key =
      ((call.stored? (map.serve name call).1).filter fun entry => Keyed.key entry == key).or
        (map.lookup key) := by
  have stores : ∀ {entry stored}, map.store? entry = some stored → stored.lookup key =
      ((some entry).filter fun entry => Keyed.key entry == key).or (map.lookup key) := by
    intro entry stored accepted
    rw [lookup_of_store? accepted, Option.filter_some]
    by_cases same : Keyed.key entry = key
    · rw [if_pos same, if_pos (beq_iff_eq.mpr same), Option.some_or]
    · rw [if_neg same, if_neg (mt beq_iff_eq.mp same), Option.none_or]
  cases call with
  | get key => rfl
  | contains key => rfl
  | update entry =>
    dsimp only [serve]
    split
    · rename_i stored _ accepted
      exact stores accepted
    · rfl
  | add entry | put entry | remember entry =>
    dsimp only [serve]
    split
    · rename_i stored accepted
      exact stores accepted
    · rfl

theorem lookup_serveAll (name : String) (map : BoundedMap ε) (calls : List (MapCall ε))
    (key : UInt64) :
    (serveAll (serve name) map calls).2.lookup key =
      (lastStored calls (serveAll (serve name) map calls).1 key).or (map.lookup key) := by
  induction calls generalizing map with
  | nil => rfl
  | cons call calls inductionHypothesis =>
    dsimp only [serveAll]
    rw [inductionHypothesis, lookup_serve, ← Option.or_assoc]
    congr 1
    rw [lastStored, lastStored, List.zipWith_cons_cons, List.reverse_cons, List.findSome?_append,
      List.findSome?_singleton]

end BoundedMap

/-! ## The answers of a table -/

namespace ProbeTable

/-- A call that fails gives no table back: the table stays as it was. -/
def settle (table : ProbeTable ε) :
    Except BufferFault (ProbeTable ε) → MapAnswer ε × ProbeTable ε
  | .ok after => (.done, after)
  | .error fault => (.failed fault, table)

def serve (table : ProbeTable ε) : MapCall ε → MapAnswer ε × ProbeTable ε
  | .get key => (.found (table.get? key), table)
  | .contains key => (.known (table.contains key), table)
  | .add entry => table.settle (table.add entry)
  | .update entry => table.settle (table.update entry)
  | .put entry => table.settle (table.put entry)
  | .remember entry => (.remembered (table.remember entry).1, (table.remember entry).2)

/-- All that a call can do to the slots. -/
theorem serve_cases (table : ProbeTable ε) (call : MapCall ε) :
    (table.serve call).2 = table ∨
    ∃ entry slot, (table.find (Keyed.key entry) = .held slot ∨
        table.find (Keyed.key entry) = .vacant slot) ∧
      (table.serve call).1.refuses = false ∧ (table.serve call).2 = table.putAt slot entry := by
  cases call with
  | get key => exact Or.inl rfl
  | contains key => exact Or.inl rfl
  | add entry | update entry | put entry | remember entry =>
    cases ends : table.find (Keyed.key entry) with
    | held slot =>
      simp only [serve, add, update, put, remember, ends, settle]
      first
        | exact Or.inl trivial
        | exact Or.inr ⟨entry, slot, Or.inl ends, rfl, rfl⟩
    | vacant slot =>
      simp only [serve, add, update, put, remember, ends, settle]
      first
        | exact Or.inl trivial
        | exact Or.inr ⟨entry, slot, Or.inr ends, rfl, rfl⟩
    | nowhere =>
      simp only [serve, add, update, put, remember, ends, settle]
      exact Or.inl trivial

theorem serve_of_refuses {table : ProbeTable ε} {call : MapCall ε}
    (refused : (table.serve call).1.refuses = true) : (table.serve call).2 = table := by
  rcases table.serve_cases call with same | ⟨_, _, _, taken, _⟩
  · exact same
  · cases refused.symm.trans taken

theorem name_serve (table : ProbeTable ε) (call : MapCall ε) :
    (table.serve call).2.name = table.name := by
  rcases table.serve_cases call with same | ⟨_, _, _, _, written⟩
  · rw [same]
  · rw [written, putAt]

theorem capacity_serve (table : ProbeTable ε) (call : MapCall ε) :
    (table.serve call).2.capacity = table.capacity := by
  rcases table.serve_cases call with same | ⟨_, _, _, _, written⟩
  · rw [same]
  · rw [written, capacity_putAt]

/-- Every stored key stands where it stood. -/
def Retains (before after : ProbeTable ε) : Prop :=
  ∀ slot entry, before.entryAt? slot = some entry →
    ∃ kept, after.entryAt? slot = some kept ∧ Keyed.key kept = Keyed.key entry

theorem Retains.trans {before between after : ProbeTable ε} (first : before.Retains between)
    (second : between.Retains after) : before.Retains after := by
  intro slot entry found
  rcases first slot entry found with ⟨kept, there, same⟩
  rcases second slot kept there with ⟨last, still, sameAgain⟩
  exact ⟨last, still, sameAgain.trans same⟩

theorem retains_serve (table : ProbeTable ε) (call : MapCall ε) :
    table.Retains (table.serve call).2 := by
  intro slot entry found
  rcases table.serve_cases call with same | ⟨new, place, ends, -, written⟩
  · rw [same]
    exact ⟨entry, found, rfl⟩
  · rw [written]
    by_cases here : place = slot
    · subst here
      refine ⟨new, entryAt?_putAt_self (lt_capacity_of_entryAt? found) new, ?_⟩
      have endsAt := table.endsAt_find (Keyed.key new)
      rcases ends with held | vacant
      · rw [held] at endsAt
        rcases endsAt with ⟨-, -, -, -, old, there, same⟩
        cases found.symm.trans there
        exact same.symm
      · rw [vacant] at endsAt
        rcases endsAt with ⟨-, -, -, -, free⟩
        cases found.symm.trans free
    · exact ⟨entry, (entryAt?_putAt_of_ne here new).trans found, rfl⟩

/-- A table that represents a map answers as the map does, and goes on
representing it. -/
theorem Represents.serve {table : ProbeTable ε} {map : BoundedMap ε}
    (represents : table.Represents map) (call : MapCall ε)
    (new : ∀ entry, call = .add entry → map.lookup (Keyed.key entry) = none) :
    (table.serve call).1 = (map.serve table.name call).1 ∧
    (table.serve call).2.Represents (map.serve table.name call).2 := by
  cases call with
  | get key =>
    dsimp only [ProbeTable.serve, BoundedMap.serve]
    exact ⟨congrArg MapAnswer.found (represents.get?_eq key), represents⟩
  | contains key =>
    dsimp only [ProbeTable.serve, BoundedMap.serve]
    exact ⟨congrArg MapAnswer.known (represents.contains_eq key), represents⟩
  | add entry =>
    have absent := new entry rfl
    cases ends : table.find (Keyed.key entry) with
    | held slot => exact absurd absent (represents.lookup_of_held ends)
    | vacant slot =>
      rcases represents.putAt_vacant ends with ⟨stored, accepted, follows⟩
      simp only [ProbeTable.serve, add, ends, settle, BoundedMap.serve, accepted]
      exact ⟨trivial, follows⟩
    | nowhere =>
      simp only [ProbeTable.serve, add, ends, settle, BoundedMap.serve,
        represents.store?_of_nowhere ends, represents.capacity]
      exact ⟨trivial, represents⟩
  | update entry =>
    cases ends : table.find (Keyed.key entry) with
    | held slot =>
      rcases Option.ne_none_iff_exists'.mp (represents.lookup_of_held ends) with ⟨old, known⟩
      rcases represents.putAt_held ends with ⟨stored, accepted, follows⟩
      simp only [ProbeTable.serve, update, ends, settle, BoundedMap.serve, known, accepted]
      exact ⟨trivial, follows⟩
    | vacant slot | nowhere =>
      have absent : map.lookup (Keyed.key entry) = none :=
        represents.lookup_of_not_held fun slot held => by cases ends.symm.trans held
      simp only [ProbeTable.serve, update, ends, settle, BoundedMap.serve, absent]
      exact ⟨trivial, represents⟩
  | put entry | remember entry =>
    cases ends : table.find (Keyed.key entry) with
    | held slot =>
      rcases represents.putAt_held ends with ⟨stored, accepted, follows⟩
      simp only [ProbeTable.serve, put, remember, ends, settle, BoundedMap.serve, accepted]
      exact ⟨trivial, follows⟩
    | vacant slot =>
      rcases represents.putAt_vacant ends with ⟨stored, accepted, follows⟩
      simp only [ProbeTable.serve, put, remember, ends, settle, BoundedMap.serve, accepted]
      exact ⟨trivial, follows⟩
    | nowhere =>
      simp only [ProbeTable.serve, put, remember, ends, settle, BoundedMap.serve,
        represents.store?_of_nowhere ends, represents.capacity]
      exact ⟨trivial, represents⟩

/-! ## All calls -/

/-- What every call keeps, all calls keep. -/
theorem serveAll_keeps {property : ProbeTable ε → Prop}
    (keeps : ∀ table call, property table → property (serve table call).2)
    {table : ProbeTable ε} (calls : List (MapCall ε)) (initially : property table) :
    property (BranchPipeline.serveAll serve table calls).2 := by
  induction calls generalizing table with
  | nil => exact initially
  | cons call calls inductionHypothesis => exact inductionHypothesis (keeps table call initially)

theorem capacity_serveAll (table : ProbeTable ε) (calls : List (MapCall ε)) :
    (BranchPipeline.serveAll serve table calls).2.capacity = table.capacity :=
  serveAll_keeps (fun between call (same : between.capacity = table.capacity) =>
    (between.capacity_serve call).trans same) calls rfl

theorem retains_serveAll (table : ProbeTable ε) (calls : List (MapCall ε)) :
    table.Retains (BranchPipeline.serveAll serve table calls).2 :=
  serveAll_keeps (fun between call (kept : table.Retains between) =>
    kept.trans (between.retains_serve call)) calls fun _ entry found => ⟨entry, found, rfl⟩

theorem Represents.serveAll {table : ProbeTable ε} {map : BoundedMap ε}
    (represents : table.Represents map) {calls : List (MapCall ε)}
    (new : map.AddsNewKeys table.name calls) :
    (BranchPipeline.serveAll ProbeTable.serve table calls).1 =
      (BranchPipeline.serveAll (BoundedMap.serve table.name) map calls).1 ∧
    (BranchPipeline.serveAll ProbeTable.serve table calls).2.Represents
      (BranchPipeline.serveAll (BoundedMap.serve table.name) map calls).2 := by
  induction calls generalizing table map with
  | nil => exact ⟨rfl, represents⟩
  | cons call calls inductionHypothesis =>
    rcases represents.serve call new.1 with ⟨answer, after⟩
    have named := table.name_serve call
    rcases inductionHypothesis after (named.symm ▸ new.2) with ⟨answers, reached⟩
    rw [named] at answers reached
    exact ⟨List.cons_eq_cons.mpr ⟨answer, answers⟩, reached⟩

/-- A probe table is a bounded map.  Whatever calls are made on a new table, as
long as only absent keys are added: every answer is that of the map, the slots
hold the entries of the map, and what is found for a key is what was stored for
it last.  A call that fails changes no slot, no two slots have entries with the
same key, the path of a stored key is occupied up to the key's own slot, and
whatever calls follow, the key stays in that slot. -/
theorem serves_boundedMap (name : String) {capacity : Nat} (positive : 0 < capacity)
    (calls further : List (MapCall ε))
    (new : (BoundedMap.empty capacity).AddsNewKeys name calls) :
    ∃ start, create name capacity = .ok start ∧
      let map := (BranchPipeline.serveAll (BoundedMap.serve name) (.empty capacity) calls).2
      let answers := (BranchPipeline.serveAll serve start calls).1
      let reached := (BranchPipeline.serveAll serve start calls).2
      answers = (BranchPipeline.serveAll (BoundedMap.serve name) (.empty capacity) calls).1 ∧
      (∀ entry, entry ∈ map.entries ↔ ∃ slot, reached.entryAt? slot = some entry) ∧
      (∀ key, reached.get? key = BoundedMap.lastStored calls answers key) ∧
      (∀ call, (reached.serve call).1.refuses = true →
        (reached.serve call).2.slots = reached.slots) ∧
      (∀ slot place entry other, reached.entryAt? slot = some entry →
        reached.entryAt? place = some other → Keyed.key entry = Keyed.key other → slot = place) ∧
      (∀ slot entry, reached.entryAt? slot = some entry →
        ∃ steps, steps < capacity ∧
          slot = ((Keyed.key entry).toNat % capacity + steps) % capacity ∧
          ∀ earlier < steps,
            reached.entryAt? (((Keyed.key entry).toNat % capacity + earlier) % capacity) ≠ none) ∧
      ∀ slot entry, reached.entryAt? slot = some entry →
        ∃ kept, (BranchPipeline.serveAll serve reached further).2.entryAt? slot = some kept ∧
          Keyed.key kept = Keyed.key entry := by
  rcases exists_create name positive with ⟨start, made⟩
  have named := name_of_create made
  rcases (represents_of_create made).serveAll (named.symm ▸ new) with ⟨answered, represents⟩
  rw [named] at answered represents
  have size := (start.capacity_serveAll calls).trans (capacity_of_create made)
  refine ⟨start, made, answered, represents.mem_entries_iff, ?_, ?_, ?_, ?_,
    retains_serveAll _ further⟩
  · intro key
    rw [represents.get?_eq, BoundedMap.lookup_serveAll, answered]
    exact Option.or_none
  · exact fun call refused => congrArg slots (serve_of_refuses refused)
  · exact fun slot place entry other => represents.placed.unique
  · intro slot entry found
    rcases represents.placed.unbroken found with ⟨steps, within, reached, occupied⟩
    rw [size] at within
    simp only [path, size] at reached occupied
    exact ⟨steps, within, reached, occupied⟩

/-- Two slots, a third key that is refused, and a collision on the way. -/
theorem serves_boundedMap_when_full :
    let calls : List (MapCall TargetEntry) :=
      [.put ⟨3, 30⟩, .add ⟨5, 50⟩, .remember ⟨7, 70⟩, .update ⟨5, 51⟩, .update ⟨7, 71⟩,
        .put ⟨8, 80⟩]
    ∃ start, create "targets" 2 = .ok start ∧
      (BranchPipeline.serveAll serve start calls).1 = [.done, .done, .remembered false, .done,
        .failed (.notFound "targets" 7), .failed (.tableFull "targets" 2)] ∧
      (BranchPipeline.serveAll serve start calls).2.get? 5 = some ⟨5, 51⟩ ∧
      (BranchPipeline.serveAll serve start calls).2.get? 7 = none := by
  intro calls
  have new : (BoundedMap.empty 2).AddsNewKeys "targets" calls := by
    refine ⟨nofun, fun entry added => ?_, nofun, nofun, nofun, nofun, trivial⟩
    cases added
    rfl
  rcases serves_boundedMap "targets" (by decide) calls [] new with
    ⟨start, made, answered, -, found, -⟩
  refine ⟨start, made, answered.trans (by decide), ?_, ?_⟩
  · rw [found, answered]
    decide
  · rw [found, answered]
    decide

end ProbeTable
end BranchPipeline
