import BranchPipeline.Buffer.Ring

namespace BranchPipeline
namespace Ring

/-!
# What a ring holds

The items of a ring from the front to the rear are its list view `toList`.
Every operation is described here by what it does to that list: adding appends,
removing takes the first item off, replacing changes one place, and emptying
leaves nothing.  Slots, pointers and wrapping do not occur in these laws, so
whoever uses a ring need not look at them again.
-/

variable {α : Type}

/-- A place behind the front holds an item exactly as long as it is occupied. -/
theorem isSome_get? (ring : Ring α) {offset : Nat} (below : offset < ring.size) :
    ∃ item, ring.get? offset = some item := by
  obtain ⟨item, found⟩ := ring.occupied offset below
  exact ⟨item, by simp [get?, below, slotAt, found]⟩

@[simp]
theorem get?_of_le (ring : Ring α) {offset : Nat} (beyond : ring.size ≤ offset) :
    ring.get? offset = none := by
  simp [get?, Nat.not_lt.mpr beyond]

/-- Collecting a function that has a value at every place of a range gives as
many values as the range has places. -/
theorem length_filterMap_range (values : Nat → Option α) (size : Nat)
    (present : ∀ place, place < size → ∃ item, values place = some item) :
    ((List.range size).filterMap values).length = size := by
  induction size with
  | zero => rfl
  | succ size step =>
    obtain ⟨item, found⟩ := present size (Nat.lt_succ_self size)
    have earlier := step fun place below => present place (Nat.lt_succ_of_lt below)
    simp [List.range_succ, List.filterMap_append, found, earlier]

/-- The values that are collected over a range stand at their places. -/
theorem getElem?_filterMap_range (values : Nat → Option α) (size : Nat)
    (present : ∀ place, place < size → ∃ item, values place = some item) (place : Nat) :
    ((List.range size).filterMap values)[place]? = if place < size then values place else none := by
  induction size with
  | zero => simp
  | succ size step =>
    obtain ⟨item, found⟩ := present size (Nat.lt_succ_self size)
    have below : ∀ place, place < size → ∃ item, values place = some item :=
      fun place below => present place (Nat.lt_succ_of_lt below)
    have length := length_filterMap_range values size below
    rw [List.range_succ, List.filterMap_append, List.getElem?_append, length, step below]
    by_cases earlier : place < size
    · simp [earlier, Nat.lt_succ_of_lt earlier]
    · by_cases last : place = size
      · subst last
        simp [found]
      · have beyond : ¬place < size + 1 := by omega
        have past : place - size ≠ 0 := by omega
        simp [earlier, beyond, found, past]

@[simp]
theorem getElem?_toList (ring : Ring α) (place : Nat) :
    ring.toList[place]? = ring.get? place := by
  rw [toList, getElem?_filterMap_range _ _ fun _ => ring.isSome_get?]
  by_cases below : place < ring.size
  · simp [below]
  · simp [below, get?_of_le ring (Nat.not_lt.mp below)]

@[simp]
theorem length_toList (ring : Ring α) : ring.toList.length = ring.size :=
  length_filterMap_range _ _ fun _ => ring.isSome_get?

/-- Two rings hold the same if they agree at every place. -/
theorem toList_eq_of_get? {ring : Ring α} {items : List α}
    (agree : ∀ place, ring.get? place = items[place]?) : ring.toList = items :=
  List.ext_getElem? fun place => (ring.getElem?_toList place).trans (agree place)

@[simp]
theorem toList_flush (ring : Ring α) : ring.flush.toList = [] :=
  List.eq_nil_of_length_eq_zero (length_toList _)

theorem toList_of_create {name : String} {capacity : Nat} {ring : Ring α}
    (made : create name capacity = .ok ring) : ring.toList = [] := by
  unfold create at made
  split at made
  · cases made
  · cases made
    exact List.eq_nil_of_length_eq_zero (length_toList _)

/-- A ring refuses an item exactly when every slot is taken. -/
theorem add_eq_error_iff (ring : Ring α) (item : α) (fault : BufferFault) :
    ring.add item = .error fault ↔
      ring.toList.length = ring.capacity ∧ fault = .ringFull ring.name ring.capacity := by
  have fits := ring.size_le
  rw [length_toList]
  unfold add capacity
  split
  · constructor
    · intro same
      cases same
    · intro same
      omega
  · constructor
    · intro same
      cases same
      exact ⟨by omega, rfl⟩
    · rintro ⟨_, rfl⟩
      rfl

/-- An added item goes behind all others. -/
theorem toList_of_add {ring added : Ring α} {item : α} (accepted : ring.add item = .ok added) :
    added.toList = ring.toList ++ [item] := by
  unfold add at accepted
  split at accepted
  · rename_i room
    cases accepted
    apply toList_eq_of_get?
    intro place
    rw [List.getElem?_append, length_toList, getElem?_toList]
    by_cases before : place < ring.size
    · have filled : ¬ring.size = 0 := by omega
      have differ := slot_ne ring.head before room
      simp only [get?, slotAt, if_pos before, if_neg filled, Array.size_setIfInBounds,
        if_pos (Nat.lt_succ_of_lt before)]
      rw [Array.getElem?_setIfInBounds_ne (Ne.symm differ)]
    · by_cases last : place = ring.size
      · subst last
        have within : ∀ head, (head + ring.size) % ring.slots.size < ring.slots.size :=
          fun head => Nat.mod_lt _ (by omega)
        simp [get?, slotAt, within]
      · have beyond : ¬place < ring.size + 1 := by omega
        have past : place - ring.size ≠ 0 := by omega
        simp [get?, before, beyond, past]
  · cases accepted

/-- The item that is taken off is the oldest one. -/
theorem fst_remove (ring : Ring α) : ring.remove.1 = ring.toList.head? := by
  rw [List.head?_eq_getElem?, getElem?_toList]
  unfold remove
  split
  · rfl
  · rename_i empty
    exact (get?_of_le ring (Nat.not_lt.mp empty)).symm

/-- Taking an item off leaves the younger ones. -/
@[simp]
theorem toList_remove (ring : Ring α) : ring.remove.2.toList = ring.toList.tail := by
  apply toList_eq_of_get?
  intro place
  rw [List.getElem?_tail, getElem?_toList]
  unfold remove
  split
  · rename_i filled
    by_cases below : place + 1 < ring.size
    · have fits := ring.size_le
      have differ := slot_ne ring.head (show 0 < place + 1 by omega)
        (show place + 1 < ring.slots.size by omega)
      have front : (ring.head + 0) % ring.slots.size = ring.head :=
        Nat.mod_eq_of_lt (ring.head_lt filled)
      rw [front] at differ
      have moved : ((ring.head + 1) % ring.slots.size + place) % ring.slots.size =
          (ring.head + (place + 1)) % ring.slots.size := by
        rw [Nat.mod_add_mod, Nat.add_assoc, Nat.add_comm 1 place]
      simp only [get?, slotAt, Array.size_setIfInBounds, if_pos below,
        if_pos (show place < ring.size - 1 by omega), moved]
      rw [Array.getElem?_setIfInBounds_ne differ]
    · simp [get?, below, show ¬place < ring.size - 1 by omega]
  · rename_i empty
    rw [get?_of_le ring (by omega), get?_of_le ring (by omega)]

/-- Replacing changes the item at one place. -/
@[simp]
theorem toList_replace (ring : Ring α) (offset : Nat) (item : α) :
    (ring.replace offset item).toList = ring.toList.set offset item := by
  apply toList_eq_of_get?
  intro place
  rw [List.getElem?_set, length_toList, getElem?_toList]
  unfold replace
  split
  · rename_i within
    by_cases below : place < ring.size
    · obtain ⟨held, found⟩ := ring.occupied offset within
      have inBounds : ring.slotAt offset < ring.slots.size :=
        (Array.getElem?_eq_some_iff.mp found).1
      by_cases same : offset = place
      · subst same
        simp [get?, below, slotAt] at inBounds ⊢
        simp [inBounds]
      · have differ : ring.slotAt offset ≠ ring.slotAt place := by
          have fits := ring.size_le
          rcases Nat.lt_or_gt_of_ne same with less | more
          · exact slot_ne ring.head less (by omega)
          · exact Ne.symm (slot_ne ring.head more (by omega))
        simp only [slotAt] at differ
        simp only [get?, slotAt, if_pos below, if_neg same, Array.size_setIfInBounds]
        rw [Array.getElem?_setIfInBounds_ne differ]
    · have other : offset ≠ place := by omega
      simp [get?, below, other]
  · rename_i beyond
    by_cases same : offset = place
    · subst same
      simp [get?_of_le ring (Nat.not_lt.mp beyond)]
    · simp [same]

end Ring
end BranchPipeline
