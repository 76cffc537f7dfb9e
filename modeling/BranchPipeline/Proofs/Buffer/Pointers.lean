import BranchPipeline.Proofs.Buffer.Capacity

namespace BranchPipeline

/-!
# The pointers of a ring

A ring counts its items from its front slot on.  Another way to keep the same
slots is with two pointers, one to the oldest item and one to the youngest, both
missing where there is no item.  Every operation is stated here once more as
what it does to the slots and to the two pointers: adding moves the rear pointer
one slot on, or starts at slot zero; removing clears the front slot and moves
the front pointer one slot on, or takes both pointers away with the last item;
emptying only takes them away.  A ring seen with its pointers is moved by its
own operations in just this way.
-/

variable {α : Type}

/-- Slots with a pointer to the oldest item and one to the youngest. -/
structure PointerRing (α : Type) where
  name : String
  slots : Array (Option α)
  front : Option Nat
  rear : Option Nat

namespace PointerRing

def capacity (ring : PointerRing α) : Nat := ring.slots.size

/-- An empty ring has no pointers. -/
def empty (name : String) (capacity : Nat) : PointerRing α :=
  { name, slots := Array.replicate capacity none, front := none, rear := none }

/-- The number of items, as far as it is from the front pointer around to the
rear pointer. -/
def size (ring : PointerRing α) : Nat :=
  match ring.front, ring.rear with
  | some front, some rear => (rear + ring.capacity - front) % ring.capacity + 1
  | _, _ => 0

/-- Moves the rear pointer on and writes behind it.  The first item starts at
slot zero. -/
def add (ring : PointerRing α) (item : α) : Except BufferFault (PointerRing α) :=
  if ring.size = ring.capacity then .error (.ringFull ring.name ring.capacity)
  else
    match ring.rear with
    | some rear =>
      let next := (rear + 1) % ring.capacity
      .ok { ring with slots := ring.slots.setIfInBounds next (some item), rear := some next }
    | none =>
      .ok
        { ring with
          slots := ring.slots.setIfInBounds 0 (some item)
          front := some 0
          rear := some 0 }

/-- Clears the front slot and moves the front pointer on.  With the last item
both pointers go. -/
def remove (ring : PointerRing α) : Option α × PointerRing α :=
  match ring.front with
  | some front =>
    let slots := ring.slots.setIfInBounds front none
    (ring.slots[front]?.join,
      if ring.front = ring.rear then { ring with slots, front := none, rear := none }
      else { ring with slots, front := some ((front + 1) % ring.capacity) })
  | none => (none, ring)

/-- The slot so many places behind the front pointer, up to the rear pointer. -/
def slotOf? (ring : PointerRing α) (offset : Nat) : Option Nat :=
  match ring.front with
  | some front => if offset < ring.size then some ((front + offset) % ring.capacity) else none
  | none => none

def get? (ring : PointerRing α) (offset : Nat) : Option α :=
  match ring.slotOf? offset with
  | some slot => ring.slots[slot]?.join
  | none => none

/-- Writes where there is an item. -/
def replace (ring : PointerRing α) (offset : Nat) (item : α) : PointerRing α :=
  match ring.slotOf? offset, ring.get? offset with
  | some slot, some _ => { ring with slots := ring.slots.setIfInBounds slot (some item) }
  | _, _ => ring

/-- Takes the pointers away and leaves the slots. -/
def flush (ring : PointerRing α) : PointerRing α := { ring with front := none, rear := none }

end PointerRing

namespace Ring

/-- The slots of a ring with its pointers. -/
def pointed (ring : Ring α) : PointerRing α :=
  { name := ring.name, slots := ring.slots, front := ring.front?, rear := ring.rear? }

/-! ## Where the pointers are -/

theorem front?_of_pos {ring : Ring α} (filled : 0 < ring.size) : ring.front? = some ring.head :=
  if_neg (Nat.ne_of_gt filled)

theorem rear?_of_pos {ring : Ring α} (filled : 0 < ring.size) :
    ring.rear? = some (ring.slotAt (ring.size - 1)) :=
  if_neg (Nat.ne_of_gt filled)

theorem front?_of_zero {ring : Ring α} (empty : ring.size = 0) : ring.front? = none := if_pos empty

theorem rear?_of_zero {ring : Ring α} (empty : ring.size = 0) : ring.rear? = none := if_pos empty

/-- A ring is empty where the front pointer is missing. -/
theorem isEmpty_eq (ring : Ring α) : ring.isEmpty = ring.front?.isNone := by
  rcases Nat.eq_zero_or_pos ring.size with empty | filled
  · rw [isEmpty, front?_of_zero empty, empty]
    rfl
  · rw [isEmpty, front?_of_pos filled]
    exact beq_false_of_ne (Nat.ne_of_gt filled)

theorem front?_eq_none_iff (ring : Ring α) : ring.front? = none ↔ ring.toList = [] := by
  rw [← isEmpty_iff, isEmpty_eq, Option.isNone_iff_eq_none]

theorem rear?_eq_none_iff (ring : Ring α) : ring.rear? = none ↔ ring.toList = [] := by
  rw [← List.length_eq_zero_iff, length_toList, rear?]
  split
  · rename_i empty
    exact iff_of_true rfl empty
  · rename_i filled
    exact iff_of_false nofun filled

theorem lt_capacity_of_front? {ring : Ring α} {slot : Nat} (points : ring.front? = some slot) :
    slot < ring.capacity := by
  unfold front? at points
  split at points
  · cases points
  · rename_i filled
    cases points
    exact ring.head_lt (Nat.pos_of_ne_zero filled)

theorem lt_capacity_of_rear? {ring : Ring α} {slot : Nat} (points : ring.rear? = some slot) :
    slot < ring.capacity := by
  have fits := ring.size_le
  unfold rear? at points
  split at points
  · cases points
  · cases points
    apply Nat.mod_lt
    omega

/-! ## The pointers tell the number of items -/

/-- Going around from a place and coming back to it, one has gone as far as one
is behind it. -/
theorem distance_around {head steps slots : Nat} (within : head < slots) (short : steps < slots) :
    ((head + steps) % slots + slots - head) % slots = steps := by
  by_cases wraps : head + steps < slots
  · have distance : head + steps + slots - head = steps + slots := by omega
    rw [Nat.mod_eq_of_lt wraps, distance, Nat.add_mod_right, Nat.mod_eq_of_lt short]
  · have distance : head + steps - slots + slots - head = steps := by omega
    have around : (head + steps) % slots = head + steps - slots := by
      rw [Nat.mod_eq_sub_mod (Nat.le_of_not_lt wraps), Nat.mod_eq_of_lt]
      omega
    rw [around, distance, Nat.mod_eq_of_lt short]

/-- The pointers alone tell the number of items. -/
theorem size_pointed (ring : Ring α) : ring.pointed.size = ring.size := by
  rcases Nat.eq_zero_or_pos ring.size with empty | filled
  · rw [PointerRing.size, pointed, front?_of_zero empty, empty]
  · have fits := ring.size_le
    have short : ring.size - 1 < ring.slots.size := by omega
    have distance := distance_around (ring.head_lt filled) short
    simp only [PointerRing.size, pointed, PointerRing.capacity, front?_of_pos filled,
      rear?_of_pos filled, slotAt, distance]
    omega

theorem size_eq_of_pointers {ring : Ring α} {front rear : Nat} (first : ring.front? = some front)
    (last : ring.rear? = some rear) :
    ring.size = (rear + ring.capacity - front) % ring.capacity + 1 := by
  rw [← size_pointed, PointerRing.size, pointed, first, last]
  rfl

/-! ## What each operation does to them -/

theorem pointed_of_create {name : String} {capacity : Nat} {ring : Ring α}
    (made : create name capacity = .ok ring) : ring.pointed = .empty name capacity := by
  unfold create at made
  split at made
  · cases made
  · cases made
    rfl

/-- Behind the youngest item comes the first free slot. -/
theorem rear_succ (ring : Ring α) (filled : 0 < ring.size) :
    (ring.slotAt (ring.size - 1) + 1) % ring.slots.size =
      (ring.head + ring.size) % ring.slots.size := by
  rw [slotAt, Nat.mod_add_mod, Nat.add_assoc, Nat.sub_add_cancel filled]

/-- An item is added behind the rear pointer. -/
theorem pointed_add (ring : Ring α) (item : α) :
    (ring.add item).map pointed = ring.pointed.add item := by
  rw [PointerRing.add, size_pointed, Ring.add]
  by_cases room : ring.size < ring.slots.size
  · have accepts : ¬ring.size = ring.pointed.capacity := Nat.ne_of_lt room
    rw [dif_pos room, if_neg accepts]
    rcases Nat.eq_zero_or_pos ring.size with empty | filled
    · simp only [Except.map, pointed, front?, rear?, slotAt, empty, if_pos, Nat.zero_add,
        Nat.zero_mod, Nat.sub_self, if_neg Nat.one_ne_zero]
    · have next := ring.rear_succ filled
      rw [slotAt] at next
      simp only [Except.map, pointed, PointerRing.capacity, front?, rear?, slotAt,
        if_neg (Nat.ne_of_gt filled), if_neg (Nat.succ_ne_zero ring.size), Nat.add_sub_cancel,
        Array.size_setIfInBounds, next]
  · have full : ring.size = ring.pointed.capacity :=
      Nat.le_antisymm ring.size_le (Nat.not_lt.mp room)
    rw [dif_neg room, if_pos full]
    rfl

/-- The two pointers meet at the last item. -/
theorem front?_eq_rear?_iff (ring : Ring α) (filled : 0 < ring.size) :
    ring.front? = ring.rear? ↔ ring.size = 1 := by
  have fits := ring.size_le
  have within := ring.head_lt filled
  rw [front?_of_pos filled, rear?_of_pos filled, Option.some_inj, slotAt]
  constructor
  · intro meet
    have distance := distance_around within (show ring.size - 1 < ring.slots.size by omega)
    rw [← meet, Nat.add_sub_cancel_left, Nat.mod_self] at distance
    omega
  · intro last
    rw [last, Nat.sub_self, Nat.add_zero, Nat.mod_eq_of_lt within]

/-- The item at the front pointer is taken off. -/
theorem pointed_remove (ring : Ring α) :
    (ring.remove.1, ring.remove.2.pointed) = ring.pointed.remove := by
  rcases Nat.eq_zero_or_pos ring.size with empty | filled
  · have front : ring.pointed.front = none := front?_of_zero empty
    rw [Ring.remove, dif_neg (Nat.not_lt.mpr (Nat.le_of_eq empty)), PointerRing.remove, front]
  · have front : ring.pointed.front = some ring.head := front?_of_pos filled
    have meet : ring.pointed.front = ring.pointed.rear ↔ ring.size = 1 :=
      ring.front?_eq_rear?_iff filled
    have start : ring.slotAt 0 = ring.head := Nat.mod_eq_of_lt (ring.head_lt filled)
    rw [Ring.remove, dif_pos filled, PointerRing.remove]
    -- with the last item both pointers go, otherwise only the front one moves
    by_cases last : ring.size = 1
    · simp only [front, if_pos (front ▸ meet.mpr last), oldest?, get?, if_pos filled, start]
      simp only [pointed, front?, rear?, last, Nat.sub_self, if_pos]
    · have more : ¬ring.size - 1 = 0 := by omega
      have rear : ((ring.head + 1) % ring.slots.size + (ring.size - 1 - 1)) % ring.slots.size =
          (ring.head + (ring.size - 1)) % ring.slots.size := by
        rw [Nat.mod_add_mod, Nat.add_assoc, Nat.add_sub_cancel' (Nat.pos_of_ne_zero more)]
      simp only [front, if_neg (front ▸ mt meet.mp last), oldest?, get?, if_pos filled, start]
      simp only [pointed, PointerRing.capacity, front?, rear?, slotAt, if_neg more,
        if_neg (Nat.ne_of_gt filled), Array.size_setIfInBounds, rear]

/-- As far as the pointers reach, a place has the slot that the ring gives it. -/
theorem slotOf?_pointed (ring : Ring α) (offset : Nat) :
    ring.pointed.slotOf? offset =
      if offset < ring.size then some (ring.slotAt offset) else none := by
  rw [PointerRing.slotOf?, size_pointed]
  rcases Nat.eq_zero_or_pos ring.size with empty | filled
  · have front : ring.pointed.front = none := front?_of_zero empty
    rw [front, empty, if_neg (Nat.not_lt_zero offset)]
  · have front : ring.pointed.front = some ring.head := front?_of_pos filled
    rw [front]
    rfl

theorem get?_pointed (ring : Ring α) (offset : Nat) :
    ring.pointed.get? offset = ring.get? offset := by
  rw [PointerRing.get?, slotOf?_pointed, get?]
  by_cases below : offset < ring.size
  · rw [if_pos below, if_pos below]
    rfl
  · rw [if_neg below, if_neg below]

/-- Only the slot of a replaced item changes. -/
theorem pointed_replace (ring : Ring α) (offset : Nat) (item : α) :
    (ring.replace offset item).pointed = ring.pointed.replace offset item := by
  rw [PointerRing.replace, slotOf?_pointed, get?_pointed, Ring.replace]
  by_cases below : offset < ring.size
  · rcases ring.isSome_get? below with ⟨held, found⟩
    rw [if_pos below, if_pos below, found]
    simp only [pointed, front?, rear?, slotAt, Array.size_setIfInBounds]
  · rw [if_neg below, if_neg below]

theorem pointed_flush (ring : Ring α) : ring.flush.pointed = ring.pointed.flush := rfl

end Ring
end BranchPipeline
