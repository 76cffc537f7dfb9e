import BranchPipeline.Proofs.Buffer.BoundedMap
import BranchPipeline.Proofs.Buffer.ProbePath

namespace BranchPipeline

/-!
# Probe tables as bounded maps

A table represents a map when it has as many slots as the map may have keys,
satisfies the invariant of probe tables, and holds the entries of the map in its
slots, in whatever order.  Every operation is then answered as the map answers
it, and leaves a table that represents the new map.  The order of the slots only
matters for the search, and the invariant has already dealt with that: a key
that is not found is not stored, and if no free slot is met on the way, then
there is none.
-/

namespace ProbeTable

variable {ε : Type}

/-! ## What the slots hold -/

/-- The stored entries in slot order. -/
def occupants (table : ProbeTable ε) : List ε := table.slots.toList.filterMap id

theorem entryAt?_eq_getElem (table : ProbeTable ε) {slot : Nat}
    (within : slot < table.slots.toList.length) :
    table.entryAt? slot = table.slots.toList[slot] := by
  rw [entryAt?, ← Array.getElem?_toList, List.getElem?_eq_getElem within, Option.join_some]

theorem mem_slots_iff (table : ProbeTable ε) (held : Option ε) :
    held ∈ table.slots.toList ↔ ∃ slot, slot < table.capacity ∧ table.entryAt? slot = held := by
  rw [List.mem_iff_getElem]
  constructor
  · rintro ⟨slot, within, found⟩
    exact ⟨slot, within, (table.entryAt?_eq_getElem within).trans found⟩
  · rintro ⟨slot, within, found⟩
    exact ⟨slot, within, (table.entryAt?_eq_getElem within).symm.trans found⟩

theorem mem_occupants_iff (table : ProbeTable ε) (entry : ε) :
    entry ∈ table.occupants ↔ ∃ slot, table.entryAt? slot = some entry := by
  rw [occupants, List.mem_filterMap]
  constructor
  · rintro ⟨held, stored, rfl⟩
    rcases (table.mem_slots_iff _).mp stored with ⟨slot, -, found⟩
    exact ⟨slot, found⟩
  · rintro ⟨slot, found⟩
    have within := lt_capacity_of_entryAt? found
    exact ⟨some entry, (table.mem_slots_iff _).mpr ⟨slot, within, found⟩, rfl⟩

/-- A free slot is a slot that no entry occupies. -/
theorem length_occupants_lt {table : ProbeTable ε} {slot : Nat} (within : slot < table.capacity)
    (free : table.entryAt? slot = none) : table.occupants.length < table.capacity :=
  List.length_filterMap_lt_length_iff_exists.mpr
    ⟨none, (table.mem_slots_iff none).mpr ⟨slot, within, free⟩, rfl⟩

theorem length_occupants_eq {table : ProbeTable ε}
    (full : ∀ slot < table.capacity, table.entryAt? slot ≠ none) :
    table.occupants.length = table.capacity := by
  refine List.filterMap_length_eq_length.mpr fun held stored => ?_
  rcases (table.mem_slots_iff held).mp stored with ⟨slot, within, rfl⟩
  exact Option.isSome_iff_ne_none.mpr (full slot within)

/-- Writing into a slot changes one place of the list of slots. -/
theorem exists_around {table : ProbeTable ε} {slot : Nat} (within : slot < table.capacity)
    (entry : ε) : ∃ front back,
      table.slots.toList = front ++ table.entryAt? slot :: back ∧
      (table.putAt slot entry).slots.toList = front ++ some entry :: back := by
  have inside : slot < table.slots.toList.length := within
  refine ⟨table.slots.toList.take slot, table.slots.toList.drop (slot + 1), ?_, ?_⟩
  · rw [table.entryAt?_eq_getElem inside, ← List.drop_eq_getElem_cons, List.take_append_drop]
  · rw [putAt, Array.toList_setIfInBounds, List.set_eq_take_append_cons_drop, if_pos inside]

theorem occupants_putAt_free {table : ProbeTable ε} {slot : Nat} (within : slot < table.capacity)
    (free : table.entryAt? slot = none) (entry : ε) :
    (table.putAt slot entry).occupants.Perm (table.occupants ++ [entry]) := by
  rcases exists_around within entry with ⟨front, back, before, after⟩
  rw [occupants, occupants, before, after, free]
  simp only [List.filterMap_append, List.filterMap_cons, id]
  exact List.perm_middle.trans (List.perm_append_singleton entry _).symm

variable [Keyed ε]

theorem occupants_of_create {name : String} {capacity : Nat} {table : ProbeTable ε}
    (made : create name capacity = .ok table) : table.occupants = [] := by
  rw [List.eq_nil_iff_forall_not_mem]
  intro entry stored
  rcases (table.mem_occupants_iff entry).mp stored with ⟨slot, found⟩
  rw [entryAt?_of_create made slot] at found
  cases found

/-- An entry with a stored key takes the place of the old one. -/
theorem occupants_putAt_held {table : ProbeTable ε} {slot : Nat} {old : ε}
    (distinct : (table.occupants.map Keyed.key).Nodup) (found : table.entryAt? slot = some old)
    {entry : ε} (same : Keyed.key old = Keyed.key entry) :
    (table.putAt slot entry).occupants = BoundedMap.replace entry table.occupants := by
  rcases exists_around (lt_capacity_of_entryAt? found) entry with ⟨front, back, before, after⟩
  have split : table.occupants = front.filterMap id ++ old :: back.filterMap id := by
    rw [occupants, before, found, List.filterMap_append]
    rfl
  rw [split, List.map_append, List.map_cons, List.nodup_append, List.nodup_cons] at distinct
  rcases distinct with ⟨-, ⟨notBehind, -⟩, apart⟩
  have notBefore : Keyed.key old ∉ (front.filterMap id).map Keyed.key := fun stored =>
    apart _ stored _ List.mem_cons_self rfl
  rw [same] at notBefore notBehind
  calc (table.putAt slot entry).occupants
      = front.filterMap id ++ entry :: back.filterMap id := by
        rw [occupants, after, List.filterMap_append]
        rfl
    _ = BoundedMap.replace entry (front.filterMap id) ++
          entry :: BoundedMap.replace entry (back.filterMap id) := by
        rw [BoundedMap.replace_of_not_mem notBefore, BoundedMap.replace_of_not_mem notBehind]
    _ = BoundedMap.replace entry table.occupants := by
        rw [split, BoundedMap.replace, BoundedMap.replace, BoundedMap.replace, List.map_append,
          List.map_cons, if_pos (beq_iff_eq.mpr same)]

/-! ## Tables that represent a map -/

structure Represents (table : ProbeTable ε) (map : BoundedMap ε) : Prop where
  placed : table.Placed
  capacity : table.capacity = map.capacity
  contents : table.occupants.Perm map.entries

theorem represents_of_create {name : String} {capacity : Nat} {table : ProbeTable ε}
    (made : create name capacity = .ok table) : table.Represents (BoundedMap.empty capacity) where
  placed := placed_of_create made
  capacity := capacity_of_create made
  contents := by
    rw [occupants_of_create made]
    exact List.Perm.refl []

namespace Represents

variable {table : ProbeTable ε} {map : BoundedMap ε}

theorem mem_entries_iff (represents : table.Represents map) (entry : ε) :
    entry ∈ map.entries ↔ ∃ slot, table.entryAt? slot = some entry :=
  represents.contents.mem_iff.symm.trans (table.mem_occupants_iff entry)

/-- What is found for a key is what the map knows for it. -/
theorem get?_eq (represents : table.Represents map) (key : UInt64) :
    table.get? key = map.lookup key := by
  cases known : map.lookup key with
  | some entry =>
    rcases (map.lookup_eq_some_iff key entry).mp known with ⟨listed, rfl⟩
    rcases (represents.mem_entries_iff entry).mp listed with ⟨slot, found⟩
    exact represents.placed.get?_eq found
  | none =>
    cases found : table.get? key with
    | none => rfl
    | some entry =>
      rcases stores_of_get? (found ▸ Option.some_ne_none entry) with ⟨slot, held, there, same⟩
      have listed := (represents.mem_entries_iff held).mpr ⟨slot, there⟩
      rw [(map.lookup_eq_some_iff key held).mpr ⟨listed, same⟩] at known
      cases known

theorem lookup_of_held (represents : table.Represents map) {key : UInt64} {slot : Nat}
    (held : table.find key = .held slot) : map.lookup key ≠ none := by
  have ends := table.endsAt_find key
  rw [held] at ends
  rcases ends with ⟨-, -, -, -, entry, found, same⟩
  have listed := (represents.mem_entries_iff entry).mpr ⟨slot, found⟩
  rw [(map.lookup_eq_some_iff key entry).mpr ⟨listed, same⟩]
  exact Option.some_ne_none entry

theorem lookup_of_not_held (represents : table.Represents map) {key : UInt64}
    (absent : ∀ slot, table.find key ≠ .held slot) : map.lookup key = none := by
  rw [← represents.get?_eq, get?]
  split
  · rename_i slot held
    exact absurd held (absent slot)
  · rfl

theorem contains_eq (represents : table.Represents map) (key : UInt64) :
    table.contains key = (map.lookup key).isSome := by
  rw [contains]
  split
  · rename_i slot held
    exact (Option.isSome_iff_ne_none.mpr (represents.lookup_of_held held)).symm
  · rename_i absent
    rw [represents.lookup_of_not_held absent]
    rfl

/-- A free slot leaves room for one more key. -/
theorem room_of_free (represents : table.Represents map) {slot : Nat}
    (within : slot < table.capacity) (free : table.entryAt? slot = none) :
    map.entries.length < map.capacity := by
  rw [← represents.contents.length_eq, ← represents.capacity]
  exact length_occupants_lt within free

/-- When other keys have taken the whole path of a key, they fill the map. -/
theorem full_of_nowhere (represents : table.Represents map) {key : UInt64}
    (nowhere : table.find key = .nowhere) : map.entries.length = map.capacity := by
  rw [← represents.contents.length_eq, ← represents.capacity]
  have passes : table.Passes key table.capacity := by
    have ends := table.endsAt_find key
    rwa [nowhere] at ends
  refine length_occupants_eq fun slot within => ?_
  rcases table.exists_path_eq key within with ⟨steps, before, rfl⟩
  rcases passes steps before with ⟨entry, found, -⟩
  exact found ▸ Option.some_ne_none entry

/-- Writing an entry over the one with its key, which the map takes in too. -/
theorem putAt_held (represents : table.Represents map) {entry : ε} {slot : Nat}
    (held : table.find (Keyed.key entry) = .held slot) :
    ∃ stored, map.store? entry = some stored ∧ (table.putAt slot entry).Represents stored := by
  have known := (map.mem_keys_iff _).mpr (represents.lookup_of_held held)
  rw [BoundedMap.store?, dif_pos known]
  refine ⟨_, rfl, represents.placed.putAt (Or.inl held), ?_, ?_⟩
  · rw [capacity_putAt]
    exact represents.capacity
  · have ends := table.endsAt_find (Keyed.key entry)
    rw [held] at ends
    rcases ends with ⟨-, -, -, -, old, found, same⟩
    have distinct := (represents.contents.map Keyed.key).nodup_iff.mpr map.distinct
    rw [occupants_putAt_held distinct found same]
    exact represents.contents.map _

/-- Writing an entry with a new key into a free slot, for which the map has
room. -/
theorem putAt_vacant (represents : table.Represents map) {entry : ε} {slot : Nat}
    (vacant : table.find (Keyed.key entry) = .vacant slot) :
    ∃ stored, map.store? entry = some stored ∧ (table.putAt slot entry).Represents stored := by
  have absent : map.lookup (Keyed.key entry) = none :=
    represents.lookup_of_not_held fun slot held => by cases vacant.symm.trans held
  have ends := table.endsAt_find (Keyed.key entry)
  rw [vacant] at ends
  rcases ends with ⟨steps, inRound, reached, -, free⟩
  have within : slot < table.capacity := reached ▸ table.path_lt _ inRound
  have new : Keyed.key entry ∉ map.keys := fun known => (map.mem_keys_iff _).mp known absent
  rw [BoundedMap.store?, dif_neg new, dif_pos (represents.room_of_free within free)]
  refine ⟨_, rfl, represents.placed.putAt (Or.inr vacant), ?_, ?_⟩
  · rw [capacity_putAt]
    exact represents.capacity
  · exact (occupants_putAt_free within free entry).trans
      (represents.contents.append_right [entry])

theorem store?_of_nowhere (represents : table.Represents map) {entry : ε}
    (nowhere : table.find (Keyed.key entry) = .nowhere) : map.store? entry = none := by
  have absent : map.lookup (Keyed.key entry) = none :=
    represents.lookup_of_not_held fun slot held => by cases nowhere.symm.trans held
  exact (map.store?_eq_none_iff entry).mpr ⟨absent, represents.full_of_nowhere nowhere⟩

end Represents

end ProbeTable

end BranchPipeline
