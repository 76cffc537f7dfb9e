import BranchPipeline.Proofs.Buffer.Pointers

namespace BranchPipeline

/-!
# Rings as queues

What a ring is for: a queue that holds at most so many items.  The calls of a
ring may follow each other in any order; each of them is described first by
what it asks of a list, in which the oldest item stands first, and then by what
a ring does.  A ring that started empty answers all calls as the list does.

The two pointers are part of the picture.  The same calls are made on slots with
two pointers, and a ring, seen with its own, goes along with them.  Together the
pointers tell how many items there are, and they are missing exactly where there
is none.
-/

variable {α : Type}

/-- One call with its argument.  A place is counted from the oldest item on. -/
inductive QueueCall (α : Type) where
  | add (item : α)
  | remove
  | get (place : Nat)
  | replace (place : Nat) (item : α)
  | replaceYoungest (item : α)
  | flush

/-- What a call gives back.  Whoever replaces an item gets the old one. -/
inductive QueueAnswer (α : Type) where
  | done
  | found (item : Option α)
  | failed (fault : BufferFault)
  deriving DecidableEq

/-- Whether there was nothing to do, or no room to do it. -/
def QueueAnswer.isIdle : QueueAnswer α → Bool
  | failed _ | found none => true
  | done | found (some _) => false

/-- What a call asks of a list of at most `capacity` items.  The name only
occurs in messages. -/
def QueueCall.ask (name : String) (capacity : Nat) (items : List α) :
    QueueCall α → QueueAnswer α × List α
  | add item =>
    if items.length = capacity then (.failed (.ringFull name capacity), items)
    else (.done, items ++ [item])
  | remove => (.found items.head?, items.tail)
  | get place => (.found items[place]?, items)
  | replace place item => (.found items[place]?, items.set place item)
  | replaceYoungest item => (.found items.getLast?, items.set (items.length - 1) item)
  | flush => (.done, [])

/-- What slots with two pointers answer, and what becomes of them. -/
def PointerRing.serve (ring : PointerRing α) : QueueCall α → QueueAnswer α × PointerRing α
  | .add item =>
    match ring.add item with
    | .ok added => (.done, added)
    | .error fault => (.failed fault, ring)
  | .remove => (.found ring.remove.1, ring.remove.2)
  | .get place => (.found (ring.get? place), ring)
  | .replace place item => (.found (ring.get? place), ring.replace place item)
  | .replaceYoungest item =>
    if ring.size = 0 then (.found none, ring)
    else (.found (ring.get? (ring.size - 1)), ring.replace (ring.size - 1) item)
  | .flush => (.done, ring.flush)

namespace Ring

/-- What a ring answers, and the ring after the call.  A ring that refuses an
item is still there. -/
def serve (ring : Ring α) : QueueCall α → QueueAnswer α × Ring α
  | .add item =>
    match ring.add item with
    | .ok added => (.done, added)
    | .error fault => (.failed fault, ring)
  | .remove => (.found ring.remove.1, ring.remove.2)
  | .get place => (.found (ring.get? place), ring)
  | .replace place item => (.found (ring.get? place), ring.replace place item)
  | .replaceYoungest item => (.found ring.youngest?, ring.replace (ring.size - 1) item)
  | .flush => (.done, ring.flush)

/-! ## One call -/

/-- The ring has this name and so many slots, and holds these items. -/
structure Queues (ring : Ring α) (name : String) (capacity : Nat) (items : List α) : Prop where
  name : ring.name = name
  capacity : ring.capacity = capacity
  items : ring.toList = items

variable {ring start : Ring α} {name : String} {capacity : Nat} {items : List α}

theorem queues_of_create (made : create name capacity = .ok start) :
    start.Queues name capacity [] where
  name := name_of_create made
  capacity := capacity_of_create made
  items := toList_of_create made

theorem Queues.length_le (queues : ring.Queues name capacity items) : items.length ≤ capacity := by
  rw [← queues.items, ← queues.capacity]
  exact ring.length_toList_le

theorem Queues.get?_eq (queues : ring.Queues name capacity items) (place : Nat) :
    ring.get? place = items[place]? := by
  rw [← getElem?_toList, queues.items]

theorem Queues.size_eq (queues : ring.Queues name capacity items) : ring.size = items.length := by
  rw [← length_toList, queues.items]

theorem Queues.youngest?_eq (queues : ring.Queues name capacity items) :
    ring.youngest? = items.getLast? := by
  rw [Ring.youngest?_eq, queues.items]

theorem Queues.replace (queues : ring.Queues name capacity items) (place : Nat) (item : α) :
    (ring.replace place item).Queues name capacity (items.set place item) where
  name := (ring.name_replace place item).trans queues.name
  capacity := (ring.capacity_replace place item).trans queues.capacity
  items := by rw [toList_replace, queues.items]

/-- A ring answers every call as its list does, and goes on holding the list. -/
theorem Queues.serve (queues : ring.Queues name capacity items) (call : QueueCall α) :
    (ring.serve call).1 = (call.ask name capacity items).1 ∧
    (ring.serve call).2.Queues name capacity (call.ask name capacity items).2 := by
  cases call with
  | add item =>
    dsimp only [Ring.serve, QueueCall.ask]
    cases accepted : ring.add item with
    | ok added =>
      have room := room_of_add accepted
      rw [queues.items, queues.capacity] at room
      rw [if_neg (Nat.ne_of_lt room)]
      refine ⟨rfl, (name_of_add accepted).trans queues.name,
        (capacity_of_add accepted).trans queues.capacity, ?_⟩
      rw [toList_of_add accepted, queues.items]
    | error fault =>
      rcases (add_eq_error_iff ring item fault).mp accepted with ⟨full, rfl⟩
      rw [queues.items, queues.capacity] at full
      rw [if_pos full, queues.name, queues.capacity]
      exact ⟨rfl, queues⟩
  | remove =>
    refine ⟨?_, (ring.name_remove).trans queues.name, (ring.capacity_remove).trans queues.capacity,
      ?_⟩
    · dsimp only [Ring.serve, QueueCall.ask]
      rw [fst_remove, queues.items]
    · dsimp only [Ring.serve, QueueCall.ask]
      rw [toList_remove, queues.items]
  | get place => exact ⟨congrArg QueueAnswer.found (queues.get?_eq place), queues⟩
  | replace place item =>
    exact ⟨congrArg QueueAnswer.found (queues.get?_eq place), queues.replace place item⟩
  | replaceYoungest item =>
    dsimp only [Ring.serve, QueueCall.ask]
    rw [queues.youngest?_eq, queues.size_eq]
    exact ⟨rfl, queues.replace _ item⟩
  | flush => exact ⟨rfl, queues.name, queues.capacity, toList_flush ring⟩

theorem replace_of_get?_eq_none {place : Nat} (missing : ring.get? place = none) (item : α) :
    ring.replace place item = ring := by
  unfold Ring.replace
  split
  · rename_i below
    rcases ring.isSome_get? below with ⟨held, found⟩
    cases missing.symm.trans found
  · rfl

/-- Where there is nothing to do or no room, not even a slot changes. -/
theorem serve_of_isIdle {call : QueueCall α} (idle : (ring.serve call).1.isIdle = true) :
    (ring.serve call).2 = ring := by
  cases call with
  | add item =>
    dsimp only [serve] at idle ⊢
    cases accepted : ring.add item with
    | ok added =>
      rw [accepted] at idle
      cases idle
    | error fault => rfl
  | remove =>
    dsimp only [serve] at idle ⊢
    by_cases filled : 0 < ring.size
    · rcases ring.isSome_get? filled with ⟨held, found⟩
      rw [fst_remove, ← oldest?_eq, oldest?, found] at idle
      cases idle
    · rw [remove, dif_neg filled]
  | get place => rfl
  | replace place item =>
    dsimp only [serve] at idle ⊢
    cases found : ring.get? place with
    | none => exact replace_of_get?_eq_none found item
    | some held =>
      rw [found] at idle
      cases idle
  | replaceYoungest item =>
    dsimp only [serve] at idle ⊢
    cases found : ring.get? (ring.size - 1) with
    | none => exact replace_of_get?_eq_none found item
    | some held =>
      have filled : ¬ring.size = 0 := by
        intro empty
        rw [get?_of_le ring (by omega)] at found
        cases found
      rw [youngest?, if_neg filled, found] at idle
      cases idle
  | flush => cases idle

/-- A ring and its slots with two pointers answer alike, and stay together. -/
theorem pointed_serve (ring : Ring α) (call : QueueCall α) :
    ring.pointed.serve call = ((ring.serve call).1, (ring.serve call).2.pointed) := by
  cases call with
  | add item =>
    have moved := ring.pointed_add item
    dsimp only [PointerRing.serve, serve]
    rw [← moved]
    cases ring.add item <;> rfl
  | remove =>
    have moved := ring.pointed_remove
    dsimp only [PointerRing.serve, serve]
    rw [← moved]
  | get place => exact Prod.ext (congrArg QueueAnswer.found (ring.get?_pointed place)) rfl
  | replace place item =>
    exact Prod.ext (congrArg QueueAnswer.found (ring.get?_pointed place))
      (ring.pointed_replace place item).symm
  | replaceYoungest item =>
    dsimp only [PointerRing.serve, serve]
    rw [size_pointed, get?_pointed, ← pointed_replace, youngest?]
    split
    · rename_i empty
      rw [replace_of_get?_eq_none (ring.get?_of_le (by omega))]
    · rfl
  | flush => rfl

/-! ## All calls -/

theorem pointed_serveAll (ring : Ring α) (calls : List (QueueCall α)) :
    (calls.foldl (fun ring call => (Ring.serve ring call).2) ring).pointed =
      calls.foldl (fun ring call => (PointerRing.serve ring call).2) ring.pointed := by
  induction calls generalizing ring with
  | nil => rfl
  | cons call calls inductionHypothesis =>
    rw [List.foldl_cons, List.foldl_cons, pointed_serve, inductionHypothesis]

theorem Queues.serveAll (queues : ring.Queues name capacity items) (calls : List (QueueCall α)) :
    (calls.foldl (fun ring call => (Ring.serve ring call).2) ring).Queues name capacity
      (calls.foldl (fun items call => (call.ask name capacity items).2) items) := by
  induction calls generalizing ring items with
  | nil => exact queues
  | cons call calls inductionHypothesis => exact inductionHypothesis (queues.serve call).2

/-- A ring is a queue of bounded size.  Whatever calls are made on a new ring,
there is a list of at most as many items as the ring has slots; every further
call is answered as the list answers it, and one that has nothing to do or no
room leaves the ring exactly as it was.  All that can be read off the ring
agrees with the list, and the pointers are slots of the ring, missing exactly
where the list is empty.  Slots and pointers are what the same calls make of an
empty ring that is kept as slots with two pointers, which answers every further
call alike. -/
theorem serves_queue (name : String) {capacity : Nat} (positive : 0 < capacity)
    (calls : List (QueueCall α)) :
    ∃ start, create name capacity = .ok start ∧
      let items := calls.foldl (fun items call => (call.ask name capacity items).2) []
      let reached := calls.foldl (fun ring call => (Ring.serve ring call).2) start
      items.length ≤ capacity ∧
      (∀ call, (reached.serve call).1 = (call.ask name capacity items).1 ∧
        (reached.serve call).2.toList = (call.ask name capacity items).2 ∧
        ((reached.serve call).1.isIdle = true → (reached.serve call).2 = reached)) ∧
      reached.toList = items ∧
      (∀ place, reached.get? place = items[place]?) ∧
      reached.oldest? = items.head? ∧
      reached.youngest? = items.getLast? ∧
      reached.size = items.length ∧
      reached.free = capacity - items.length ∧
      (reached.isEmpty = true ↔ items = []) ∧
      (reached.isFull = true ↔ items.length = capacity) ∧
      (reached.front? = none ↔ items = []) ∧
      (reached.rear? = none ↔ items = []) ∧
      (∀ slot, reached.front? = some slot → slot < capacity) ∧
      (∀ slot, reached.rear? = some slot → slot < capacity) ∧
      (∀ front rear, reached.front? = some front → reached.rear? = some rear →
        items.length = (rear + capacity - front) % capacity + 1) ∧
      reached.pointed =
        calls.foldl (fun ring call => (PointerRing.serve ring call).2) (.empty name capacity) ∧
      ∀ call, reached.pointed.serve call =
        ((reached.serve call).1, (reached.serve call).2.pointed) := by
  rcases exists_create name positive with ⟨start, made⟩
  refine ⟨start, made, ?_⟩
  intro items reached
  have queues : reached.Queues name capacity items := (queues_of_create made).serveAll calls
  refine ⟨queues.length_le, ?_, queues.items, queues.get?_eq, ?_, queues.youngest?_eq,
    queues.size_eq, ?_, ?_, ?_, ?_, ?_, ?_, ?_, ?_, ?_, reached.pointed_serve⟩
  · intro call
    rcases queues.serve call with ⟨answer, after⟩
    exact ⟨answer, after.items, serve_of_isIdle⟩
  · rw [oldest?_eq, queues.items]
  · rw [free_eq, queues.items, queues.capacity]
  · rw [isEmpty_iff, queues.items]
  · rw [isFull, beq_iff_eq, queues.size_eq, queues.capacity]
  · rw [front?_eq_none_iff, queues.items]
  · rw [rear?_eq_none_iff, queues.items]
  · intro slot points
    rw [← queues.capacity]
    exact lt_capacity_of_front? points
  · intro slot points
    rw [← queues.capacity]
    exact lt_capacity_of_rear? points
  · intro front rear first last
    rw [← queues.size_eq, ← queues.capacity]
    exact size_eq_of_pointers first last
  · rw [← pointed_of_create made]
    exact start.pointed_serveAll calls

/-- Two slots: a third item is refused, one that comes after a removal goes to
the slot in front of the older one, and an item put into an emptied ring goes to
the first slot. -/
theorem serves_queue_around :
    let calls : List (QueueCall Nat) := [.add 1, .add 2, .add 3, .remove, .add 4,
      .replaceYoungest 5]
    ∃ start, create "ring" 2 = .ok start ∧
      let reached := calls.foldl (fun ring call => (Ring.serve ring call).2) start
      reached.toList = [2, 5] ∧ reached.youngest? = some 5 ∧ reached.isFull = true ∧
      (reached.serve (.add 6)).1 = .failed (.ringFull "ring" 2) ∧
      (reached.serve (.add 6)).2 = reached ∧ (reached.serve .flush).2.toList = [] := by
  intro calls
  rcases serves_queue "ring" (by decide : 0 < 2) calls with
    ⟨start, made, -, serves, held, -, -, youngest, -, -, -, full, -⟩
  have answer : (QueueCall.ask "ring" 2 [2, 5] (.add 6)).1 = .failed (.ringFull "ring" 2) := by
    decide
  have refused := (serves (.add 6)).1.trans answer
  refine ⟨start, made, held, youngest, full.mpr (by decide), refused, ?_, (serves .flush).2.1⟩
  apply (serves (.add 6)).2.2
  rw [refused]
  decide

end Ring
end BranchPipeline
