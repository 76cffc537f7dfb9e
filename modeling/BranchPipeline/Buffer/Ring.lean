import BranchPipeline.Buffer.Fault
import BranchPipeline.Text.Layout

namespace BranchPipeline

/-!
# Rings

A ring is a first-in, first-out queue in a fixed number of slots.  Its items
stand in consecutive slots, taken around the end, from the front slot on.
Emptying a ring only forgets how many items there are: the slots keep what
they held until it is overwritten.  The first item put into an empty ring
always goes to slot zero.

The structure carries the proof that every slot between front and rear is
occupied.  What a ring holds is therefore its list view `toList`, and each
operation can be described by what it does to that list.
-/

/-- A queue of at most `slots.size` items. -/
structure Ring (α : Type) where
  name : String
  slots : Array (Option α)
  /-- The slot of the oldest item; without meaning in an empty ring. -/
  head : Nat
  size : Nat
  size_le : size ≤ slots.size
  head_lt : 0 < size → head < slots.size
  occupied : ∀ offset, offset < size →
    ∃ item, slots[(head + offset) % slots.size]? = some (some item)

namespace Ring

variable {α : Type}

/-- The number of slots. -/
def capacity (ring : Ring α) : Nat := ring.slots.size

/-- An empty ring with the given number of slots, of which there must be one. -/
def create (name : String) (capacity : Nat) : Except BufferFault (Ring α) :=
  if capacity = 0 then .error (.noSlots (.none name))
  else
    .ok
      { name
        slots := Array.replicate capacity none
        head := 0
        size := 0
        size_le := Nat.zero_le _
        head_lt := fun positive => absurd positive (Nat.lt_irrefl 0)
        occupied := fun _ below => absurd below (Nat.not_lt_zero _) }

/-- One more than the number of bytes that a vector can have at most. -/
def byteBound : Nat := 0x8000000000000000

/-- An empty ring in memory, where a slot takes at least one byte. -/
def allocate (name : String) (capacity : Nat) : Except BufferFault (Ring α) :=
  if capacity < byteBound then create name capacity else .error (.noSlots .tooMany)

/-- The number of slots that are still free. -/
def free (ring : Ring α) : Nat := ring.capacity - ring.size

/-- Whether the ring holds nothing. -/
def isEmpty (ring : Ring α) : Bool := ring.size == 0

/-- Whether every slot is taken. -/
def isFull (ring : Ring α) : Bool := ring.size == ring.capacity

/-- The slot of the item that is `offset` places behind the front. -/
def slotAt (ring : Ring α) (offset : Nat) : Nat :=
  (ring.head + offset) % ring.slots.size

/-- The slot of the oldest item. -/
def front? (ring : Ring α) : Option Nat :=
  if ring.size = 0 then none else some ring.head

/-- The slot of the youngest item. -/
def rear? (ring : Ring α) : Option Nat :=
  if ring.size = 0 then none else some (ring.slotAt (ring.size - 1))

/-- The item that is `offset` places behind the front. -/
def get? (ring : Ring α) (offset : Nat) : Option α :=
  if offset < ring.size then (ring.slots[ring.slotAt offset]?).join else none

def oldest? (ring : Ring α) : Option α := ring.get? 0

def youngest? (ring : Ring α) : Option α :=
  if ring.size = 0 then none else ring.get? (ring.size - 1)

/-- The items from the front to the rear. -/
def toList (ring : Ring α) : List α :=
  (List.range ring.size).filterMap ring.get?

/-- Slots at different places behind the front differ, as long as the places
are fewer than the slots. -/
theorem slot_ne (head : Nat) {first second slots : Nat} (less : first < second)
    (fits : second < slots) : (head + first) % slots ≠ (head + second) % slots := by
  intro same
  have step : (head + second) % slots = ((head + first) % slots + (second - first)) % slots := by
    rw [Nat.mod_add_mod]
    congr 1
    omega
  rw [← same] at step
  have within : (head + first) % slots < slots := Nat.mod_lt _ (by omega)
  generalize (head + first) % slots = place at step within
  by_cases wraps : place + (second - first) < slots
  · rw [Nat.mod_eq_of_lt wraps] at step
    omega
  · rw [Nat.mod_eq_sub_mod (by omega), Nat.mod_eq_of_lt (by omega)] at step
    omega

/-- Where the slot behind the youngest item is written, the ring stays
occupied up to that slot. -/
theorem occupied_append {slots : Array (Option α)} {head size : Nat} (item : α)
    (room : size < slots.size)
    (occupied : ∀ offset, offset < size →
      ∃ held, slots[(head + offset) % slots.size]? = some (some held)) :
    ∀ offset, offset < size + 1 → ∃ held,
      (slots.setIfInBounds ((head + size) % slots.size) (some item))[(head + offset) %
        (slots.setIfInBounds ((head + size) % slots.size) (some item)).size]? =
        some (some held) := by
  intro offset below
  rw [Array.size_setIfInBounds]
  have within : (head + size) % slots.size < slots.size := Nat.mod_lt _ (by omega)
  by_cases last : offset = size
  · subst last
    exact ⟨item, by simp [within]⟩
  · obtain ⟨held, found⟩ := occupied offset (by omega)
    have differ := slot_ne head (show offset < size by omega) room
    exact ⟨held, by rw [Array.getElem?_setIfInBounds_ne (Ne.symm differ), found]⟩

/-- Appends an item at the rear. -/
def add (ring : Ring α) (item : α) : Except BufferFault (Ring α) :=
  if room : ring.size < ring.slots.size then
    let head := if ring.size = 0 then 0 else ring.head
    have occupied : ∀ offset, offset < ring.size →
        ∃ held, ring.slots[(head + offset) % ring.slots.size]? = some (some held) := by
      intro offset below
      have filled : ¬ring.size = 0 := by omega
      simp only [head, if_neg filled]
      exact ring.occupied offset below
    .ok
      { name := ring.name
        slots := ring.slots.setIfInBounds ((head + ring.size) % ring.slots.size) (some item)
        head
        size := ring.size + 1
        size_le := by rw [Array.size_setIfInBounds]; exact room
        head_lt := by
          intro _
          rw [Array.size_setIfInBounds]
          by_cases empty : ring.size = 0
          · simp only [head, if_pos empty]; omega
          · simp only [head, if_neg empty]; exact ring.head_lt (by omega)
        occupied := occupied_append item room occupied }
  else .error (.ringFull ring.name ring.capacity)

/-- Takes the oldest item off; an empty ring stays as it is. -/
def remove (ring : Ring α) : Option α × Ring α :=
  if filled : 0 < ring.size then
    (ring.oldest?,
      { name := ring.name
        slots := ring.slots.setIfInBounds ring.head none
        head := (ring.head + 1) % ring.slots.size
        size := ring.size - 1
        size_le := by
          rw [Array.size_setIfInBounds]
          exact Nat.le_trans (Nat.sub_le _ _) ring.size_le
        head_lt := by
          intro _
          rw [Array.size_setIfInBounds]
          exact Nat.mod_lt _ (Nat.lt_of_lt_of_le filled ring.size_le)
        occupied := by
          intro offset below
          rw [Array.size_setIfInBounds]
          have slots := ring.size_le
          obtain ⟨item, found⟩ := ring.occupied (offset + 1) (by omega)
          have moved : ((ring.head + 1) % ring.slots.size + offset) % ring.slots.size =
              (ring.head + (offset + 1)) % ring.slots.size := by
            rw [Nat.mod_add_mod, Nat.add_assoc, Nat.add_comm 1 offset]
          have front : ring.head = (ring.head + 0) % ring.slots.size :=
            (Nat.mod_eq_of_lt (ring.head_lt filled)).symm
          have differ := slot_ne ring.head (show 0 < offset + 1 by omega)
            (show offset + 1 < ring.slots.size by omega)
          rw [← front] at differ
          exact ⟨item, by rw [moved, Array.getElem?_setIfInBounds_ne differ, found]⟩ })
  else (none, ring)

/-- Replaces the item that is `offset` places behind the front, if it exists. -/
def replace (ring : Ring α) (offset : Nat) (item : α) : Ring α :=
  if offset < ring.size then
    { ring with
      slots := ring.slots.setIfInBounds (ring.slotAt offset) (some item)
      size_le := by rw [Array.size_setIfInBounds]; exact ring.size_le
      head_lt := by rw [Array.size_setIfInBounds]; exact ring.head_lt
      occupied := by
        intro other below
        rw [Array.size_setIfInBounds]
        obtain ⟨held, found⟩ := ring.occupied other below
        have within : (ring.head + other) % ring.slots.size < ring.slots.size :=
          (Array.getElem?_eq_some_iff.mp found).1
        by_cases same : ring.slotAt offset = (ring.head + other) % ring.slots.size
        · exact ⟨item, by rw [same]; simp [within]⟩
        · exact ⟨held, by rw [Array.getElem?_setIfInBounds_ne same, found]⟩ }
  else ring

/-- Forgets all items. -/
def flush (ring : Ring α) : Ring α :=
  { ring with
    size := 0
    size_le := Nat.zero_le _
    head_lt := fun positive => absurd positive (Nat.lt_irrefl 0)
    occupied := fun _ below => absurd below (Nat.not_lt_zero _) }

/-- A slot number, or a dash for none. -/
def slotText : Option Nat → String
  | some slot => toString slot
  | none => "-"

/-- The ring with its pointers and one line per item. -/
def view (ring : Ring α) (itemText : α → String) : String :=
  let lines := ring.toList.mapIdx fun offset item =>
    "  " ++ Text.padLeft 3 (toString offset) ++ ": " ++ itemText item ++ "\n"
  s!"{ring.name} ({ring.size}/{ring.capacity}, front: " ++ slotText ring.front? ++
    ", rear: " ++ slotText ring.rear? ++ ") \x7b\n" ++ String.join lines ++ "\x7d"

end Ring
end BranchPipeline
