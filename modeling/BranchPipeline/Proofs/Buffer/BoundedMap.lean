import BranchPipeline.Buffer.ProbeTable

namespace BranchPipeline

/-!
# Maps of bounded size

What a probe table is for: a finite map from keys to entries that holds at most
so many keys.  The entries are listed in the order in which their keys first
came; an entry with a known key takes the place of the old one, and an unknown
key is only taken in while there is room.  Slots, paths and collisions do not
occur here.
-/

/-- Entries with distinct keys, at most `capacity` of them. -/
structure BoundedMap (ε : Type) [Keyed ε] where
  capacity : Nat
  entries : List ε
  distinct : (entries.map Keyed.key).Nodup
  within : entries.length ≤ capacity

namespace BoundedMap

variable {ε : Type} [Keyed ε]

def empty (capacity : Nat) : BoundedMap ε where
  capacity
  entries := []
  distinct := List.nodup_nil
  within := Nat.zero_le capacity

def keys (map : BoundedMap ε) : List UInt64 := map.entries.map Keyed.key

/-- The entry that is known for a key. -/
def lookup (map : BoundedMap ε) (key : UInt64) : Option ε :=
  map.entries.find? fun entry => Keyed.key entry == key

/-- Puts an entry in the place of the one with the same key. -/
def replace (entry : ε) (entries : List ε) : List ε :=
  entries.map fun old => if Keyed.key old == Keyed.key entry then entry else old

theorem map_key_replace (entry : ε) (entries : List ε) :
    (replace entry entries).map Keyed.key = entries.map Keyed.key := by
  rw [replace, List.map_map]
  apply List.map_congr_left
  intro old _
  rw [Function.comp_apply]
  split
  · rename_i same
    exact (beq_iff_eq.mp same).symm
  · rfl

theorem replace_of_not_mem {entry : ε} {entries : List ε}
    (unknown : Keyed.key entry ∉ entries.map Keyed.key) : replace entry entries = entries := by
  rw [replace]
  refine (List.map_congr_left fun old stored => ?_).trans (List.map_id entries)
  rw [id, if_neg]
  intro same
  exact unknown (List.mem_map.mpr ⟨old, stored, beq_iff_eq.mp same⟩)

/-- Stores an entry, unless its key is not known and there is no room. -/
def store? (map : BoundedMap ε) (entry : ε) : Option (BoundedMap ε) :=
  if known : Keyed.key entry ∈ map.keys then
    some { map with
      entries := replace entry map.entries
      distinct := (map_key_replace entry map.entries).symm ▸ map.distinct
      within := by
        rw [replace, List.length_map]
        exact map.within }
  else if room : map.entries.length < map.capacity then
    some { map with
      entries := map.entries ++ [entry]
      distinct := by
        rw [List.map_append, List.map_singleton, List.nodup_append]
        refine ⟨map.distinct, List.pairwise_singleton _ _, ?_⟩
        intro key stored other new
        cases List.mem_singleton.mp new
        exact fun same => known (same ▸ stored)
      within := by
        rw [List.length_append, List.length_singleton]
        exact room }
  else none

theorem mem_keys_iff (map : BoundedMap ε) (key : UInt64) :
    key ∈ map.keys ↔ map.lookup key ≠ none := by
  rw [keys, List.mem_map, lookup, Ne, List.find?_eq_none]
  constructor
  · rintro ⟨entry, stored, rfl⟩ unknown
    exact unknown entry stored BEq.rfl
  · intro known
    rcases Classical.not_forall.mp known with ⟨entry, found⟩
    rcases Classical.not_imp.mp found with ⟨stored, same⟩
    exact ⟨entry, stored, beq_iff_eq.mp (Decidable.not_not.mp same)⟩

/-- Among entries with distinct keys, the first with a key is the only one. -/
theorem find?_key_eq_some_iff {entries : List ε} (distinct : (entries.map Keyed.key).Nodup)
    (key : UInt64) (entry : ε) :
    entries.find? (fun entry => Keyed.key entry == key) = some entry ↔
      entry ∈ entries ∧ Keyed.key entry = key := by
  constructor
  · intro found
    have same := List.find?_some found
    exact ⟨List.mem_of_find?_eq_some found, beq_iff_eq.mp same⟩
  · rintro ⟨stored, rfl⟩
    induction entries with
    | nil => cases stored
    | cons first rest inductionHypothesis =>
      rw [List.map_cons, List.nodup_cons] at distinct
      rcases List.mem_cons.mp stored with rfl | later
      · exact List.find?_cons_of_pos BEq.rfl
      · have other : Keyed.key first ≠ Keyed.key entry := fun same =>
          distinct.1 (same ▸ List.mem_map_of_mem later)
        rw [List.find?_cons_of_neg (by rwa [beq_iff_eq])]
        exact inductionHypothesis distinct.2 later

theorem lookup_eq_some_iff (map : BoundedMap ε) (key : UInt64) (entry : ε) :
    map.lookup key = some entry ↔ entry ∈ map.entries ∧ Keyed.key entry = key :=
  find?_key_eq_some_iff map.distinct key entry

/-- An entry is refused only if its key is new and the map is full. -/
theorem store?_eq_none_iff (map : BoundedMap ε) (entry : ε) :
    map.store? entry = none ↔
      map.lookup (Keyed.key entry) = none ∧ map.entries.length = map.capacity := by
  have known := map.mem_keys_iff (Keyed.key entry)
  have within := map.within
  unfold store?
  split
  · rename_i stored
    exact ⟨nofun, fun refused => absurd refused.1 (known.mp stored)⟩
  · rename_i new
    have absent := Decidable.not_not.mp (mt known.mpr new)
    split
    · rename_i room
      exact ⟨nofun, fun refused => absurd refused.2 (Nat.ne_of_lt room)⟩
    · rename_i full
      exact ⟨fun _ => ⟨absent, Nat.le_antisymm within (Nat.le_of_not_lt full)⟩, fun _ => rfl⟩

theorem capacity_of_store? {map stored : BoundedMap ε} {entry : ε}
    (accepted : map.store? entry = some stored) : stored.capacity = map.capacity := by
  unfold store? at accepted
  split at accepted
  · cases accepted
    rfl
  · split at accepted <;> cases accepted
    rfl

theorem find?_replace (entry : ε) (entries : List ε) (key : UInt64) :
    (replace entry entries).find? (fun entry => Keyed.key entry == key) =
      (entries.find? fun entry => Keyed.key entry == key).map fun old =>
        if Keyed.key old == Keyed.key entry then entry else old := by
  rw [replace, List.find?_map]
  congr 2
  funext old
  rw [Function.comp_apply]
  split
  · rename_i same
    rw [beq_iff_eq.mp same]
  · rfl

/-- Storing an entry changes what is known for its key, and nothing else. -/
theorem lookup_of_store? {map stored : BoundedMap ε} {entry : ε}
    (accepted : map.store? entry = some stored) (key : UInt64) :
    stored.lookup key = if Keyed.key entry = key then some entry else map.lookup key := by
  have known := map.mem_keys_iff (Keyed.key entry)
  unfold store? at accepted
  split at accepted
  · rename_i present
    cases accepted
    rw [lookup, find?_replace, ← lookup]
    split
    · rename_i same
      subst same
      rcases Option.ne_none_iff_exists'.mp (known.mp present) with ⟨old, found⟩
      have oldKey := ((map.lookup_eq_some_iff _ old).mp found).2
      rw [found, Option.map_some, if_pos (beq_iff_eq.mpr oldKey)]
    · rename_i other
      cases found : map.lookup key with
      | none => rfl
      | some old =>
        have oldKey := ((map.lookup_eq_some_iff _ old).mp found).2
        rw [Option.map_some, if_neg]
        exact fun same => other (oldKey ▸ (beq_iff_eq.mp same).symm)
  · rename_i new
    have absent := Decidable.not_not.mp (mt known.mpr new)
    split at accepted <;> cases accepted
    rw [lookup, List.find?_append, ← lookup]
    split
    · rename_i same
      subst same
      rw [absent, Option.none_or]
      exact List.find?_cons_of_pos BEq.rfl
    · rename_i other
      have unlike : ¬ (Keyed.key entry == key) = true := mt beq_iff_eq.mp other
      rw [List.find?_singleton, if_neg unlike, Option.or_none]

end BoundedMap
end BranchPipeline
