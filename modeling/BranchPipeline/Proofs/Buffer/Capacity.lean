import BranchPipeline.Buffer.Ring.Contents

namespace BranchPipeline
namespace Ring

/-!
# Room in a ring

No operation changes the number of slots or the name, and an item is taken
exactly as long as a slot is free.  Together with the list view this is all that
a user of a ring needs in order to know that adding cannot fail, or under which
name it does.
-/

variable {α : Type}

theorem length_toList_le (ring : Ring α) : ring.toList.length ≤ ring.capacity := by
  rw [length_toList]
  exact ring.size_le

theorem free_eq (ring : Ring α) : ring.free = ring.capacity - ring.toList.length := by
  rw [free, length_toList]

theorem isEmpty_iff (ring : Ring α) : ring.isEmpty = true ↔ ring.toList = [] := by
  rw [isEmpty, beq_iff_eq, ← length_toList, List.length_eq_zero_iff]

theorem oldest?_eq (ring : Ring α) : ring.oldest? = ring.toList.head? := by
  rw [oldest?, List.head?_eq_getElem?, getElem?_toList]

theorem youngest?_eq (ring : Ring α) : ring.youngest? = ring.toList.getLast? := by
  rw [List.getLast?_eq_getElem?, getElem?_toList, length_toList, youngest?]
  split
  · rename_i empty
    exact (get?_of_le ring (by omega)).symm
  · rfl

/-! ## The number of slots stays -/

theorem exists_create (name : String) {capacity : Nat} (positive : 0 < capacity) :
    ∃ ring : Ring α, create name capacity = .ok ring := by
  unfold create
  rw [if_neg (Nat.ne_of_gt positive)]
  exact ⟨_, rfl⟩

theorem capacity_of_create {name : String} {capacity : Nat} {ring : Ring α}
    (made : create name capacity = .ok ring) : ring.capacity = capacity := by
  unfold create at made
  split at made
  · cases made
  · cases made
    exact Array.size_replicate

/-- What memory has room for is a new ring, and one with fewer slots than a
vector has bytes at most. -/
theorem allocate_eq_ok {name : String} {capacity : Nat} {ring : Ring α} :
    allocate name capacity = .ok ring ↔ capacity < byteBound ∧ create name capacity = .ok ring := by
  unfold allocate
  split
  · rename_i small
    rw [and_iff_right small]
  · rename_i large
    exact iff_of_false nofun fun fits => large fits.1

theorem capacity_of_add {ring added : Ring α} {item : α} (accepted : ring.add item = .ok added) :
    added.capacity = ring.capacity := by
  unfold add at accepted
  split at accepted
  · cases accepted
    exact Array.size_setIfInBounds
  · cases accepted

@[simp]
theorem capacity_remove (ring : Ring α) : ring.remove.2.capacity = ring.capacity := by
  unfold remove
  split
  · exact Array.size_setIfInBounds
  · rfl

@[simp]
theorem capacity_replace (ring : Ring α) (offset : Nat) (item : α) :
    (ring.replace offset item).capacity = ring.capacity := by
  unfold replace
  split
  · exact Array.size_setIfInBounds
  · rfl

@[simp]
theorem capacity_flush (ring : Ring α) : ring.flush.capacity = ring.capacity := rfl

/-! ## The name stays -/

theorem name_of_create {name : String} {capacity : Nat} {ring : Ring α}
    (made : create name capacity = .ok ring) : ring.name = name := by
  unfold create at made
  split at made
  · cases made
  · cases made
    rfl

theorem name_of_add {ring added : Ring α} {item : α} (accepted : ring.add item = .ok added) :
    added.name = ring.name := by
  unfold add at accepted
  split at accepted
  · cases accepted
    rfl
  · cases accepted

@[simp]
theorem name_remove (ring : Ring α) : ring.remove.2.name = ring.name := by
  unfold remove
  split <;> rfl

@[simp]
theorem name_replace (ring : Ring α) (offset : Nat) (item : α) :
    (ring.replace offset item).name = ring.name := by
  unfold replace
  split <;> rfl

/-- A list is taken item by item under the name of the ring, and refused under
it as well. -/
theorem name_of_addAll (items : List α) (ring : Ring α) :
    match items.foldlM add ring with
    | .ok filled => filled.name = ring.name
    | .error fault => ∃ capacity, fault = .ringFull ring.name capacity := by
  induction items generalizing ring with
  | nil => rfl
  | cons item items inductionHypothesis =>
    rw [List.foldlM_cons]
    cases accepted : ring.add item with
    | error fault => exact ⟨ring.capacity, ((add_eq_error_iff ring item fault).mp accepted).2⟩
    | ok added =>
      have rest := inductionHypothesis added
      rw [name_of_add accepted] at rest
      exact rest

/-! ## Adding where there is room -/

/-- A ring with a free slot takes an item and holds it behind all others. -/
theorem exists_add (ring : Ring α) (item : α) (room : ring.toList.length < ring.capacity) :
    ∃ added, ring.add item = .ok added ∧ added.toList = ring.toList ++ [item] ∧
      added.capacity = ring.capacity := by
  cases accepted : ring.add item with
  | ok added => exact ⟨added, rfl, toList_of_add accepted, capacity_of_add accepted⟩
  | error fault =>
    have full := ((add_eq_error_iff ring item fault).mp accepted).1
    exact absurd full (Nat.ne_of_lt room)

/-- A ring that has taken an item had a free slot. -/
theorem room_of_add {ring added : Ring α} {item : α} (accepted : ring.add item = .ok added) :
    ring.toList.length < ring.capacity := by
  apply Nat.lt_of_le_of_ne ring.length_toList_le
  intro full
  have refused := (add_eq_error_iff ring item _).mpr ⟨full, rfl⟩
  rw [accepted] at refused
  cases refused

/-- A list for which there is room is taken item by item. -/
theorem exists_addAll (items : List α) (ring : Ring α)
    (room : ring.toList.length + items.length ≤ ring.capacity) :
    ∃ filled, items.foldlM add ring = .ok filled ∧ filled.toList = ring.toList ++ items ∧
      filled.capacity = ring.capacity := by
  induction items generalizing ring with
  | nil => exact ⟨ring, rfl, (List.append_nil _).symm, rfl⟩
  | cons item items inductionHypothesis =>
    rw [List.length_cons] at room
    rcases ring.exists_add item (by omega) with ⟨added, accepted, held, slots⟩
    rcases inductionHypothesis added (by
      rw [held, slots, List.length_append, List.length_singleton]
      omega) with ⟨filled, taken, contents, capacity⟩
    refine ⟨filled, ?_, ?_, capacity.trans slots⟩
    · rw [List.foldlM_cons, accepted]
      exact taken
    · rw [contents, held, List.append_assoc, List.singleton_append]

end Ring
end BranchPipeline
