import BranchPipeline.Proofs.Buffer.MapRefinement

namespace BranchPipeline

/-!
# What a table learns

A table that is only ever taught knows the keys that came first, as many as it
has slots, and forgets every later one.  Which slots the keys have taken does
not show from outside, and neither does the table's state: a history of keys and
the entry that each of the known ones now has say all there is to say.
-/

/-- The keys that a table with so many slots comes to know, if they are taught
in this order. -/
def firstKeys (capacity : Nat) (keys : List UInt64) : List UInt64 :=
  keys.eraseDups.take capacity

theorem mem_of_mem_firstKeys {capacity : Nat} {keys : List UInt64} {key : UInt64}
    (first : key ∈ firstKeys capacity keys) : key ∈ keys :=
  List.mem_eraseDups.mp (List.mem_of_mem_take first)

/-- A key that has come before changes nothing. -/
theorem firstKeys_append_of_mem (capacity : Nat) {keys : List UInt64} {key : UInt64}
    (old : key ∈ keys) : firstKeys capacity (keys ++ [key]) = firstKeys capacity keys := by
  have nothingNew : [key].removeAll keys = [] := by
    rw [List.removeAll, List.filter_eq_nil_iff]
    intro other same
    cases List.mem_singleton.mp same
    rw [List.elem_eq_mem, decide_eq_true old]
    decide
  rw [firstKeys, firstKeys, List.eraseDups_append, nothingNew, List.eraseDups_nil, List.append_nil]

theorem eraseDups_append_of_not_mem {keys : List UInt64} {key : UInt64} (new : key ∉ keys) :
    (keys ++ [key]).eraseDups = keys.eraseDups ++ [key] := by
  have allNew : [key].removeAll keys = [key] := by
    rw [List.removeAll, List.filter_eq_self]
    intro other same
    cases List.mem_singleton.mp same
    rw [List.elem_eq_mem, decide_eq_false new]
    rfl
  rw [List.eraseDups_append, allNew, List.eraseDups_cons, List.filter_nil, List.eraseDups_nil]

/-- When all slots are taken, no key gets in any more. -/
theorem firstKeys_append_of_full {capacity : Nat} {keys : List UInt64}
    (full : (firstKeys capacity keys).length = capacity) (key : UInt64) :
    firstKeys capacity (keys ++ [key]) = firstKeys capacity keys := by
  by_cases old : key ∈ keys
  · exact firstKeys_append_of_mem capacity old
  · rw [firstKeys, List.length_take] at full
    rw [firstKeys, eraseDups_append_of_not_mem old, List.take_append_of_le_length (by omega),
      firstKeys]

/-- As long as a slot is free, a new key gets in. -/
theorem firstKeys_append_of_room {capacity : Nat} {keys : List UInt64}
    (room : (firstKeys capacity keys).length < capacity) {key : UInt64}
    (new : key ∉ firstKeys capacity keys) :
    firstKeys capacity (keys ++ [key]) = firstKeys capacity keys ++ [key] := by
  have few : keys.eraseDups.length < capacity := by
    rw [firstKeys, List.length_take] at room
    omega
  have all : firstKeys capacity keys = keys.eraseDups := List.take_of_length_le (Nat.le_of_lt few)
  rw [all] at new ⊢
  rw [firstKeys, eraseDups_append_of_not_mem (mt List.mem_eraseDups.mpr new)]
  refine List.take_of_length_le ?_
  rw [List.length_append, List.length_singleton]
  exact few

/-- A key that has come in has come in for good. -/
theorem mem_firstKeys_append {capacity : Nat} {keys : List UInt64} {key other : UInt64}
    (first : other ∈ firstKeys capacity (keys ++ [key])) :
    other = key ∨ other ∈ firstKeys capacity keys := by
  by_cases new : key ∈ keys
  · rw [firstKeys_append_of_mem capacity new] at first
    exact Or.inr first
  · rw [firstKeys, eraseDups_append_of_not_mem new, List.take_append, List.mem_append] at first
    rcases first with earlier | last
    · exact Or.inr earlier
    · exact Or.inl (List.mem_singleton.mp (List.mem_of_mem_take last))

/-- A key that comes in comes for the first time. -/
theorem not_mem_of_mem_firstKeys_append {capacity : Nat} {keys : List UInt64} {key : UInt64}
    (first : key ∈ firstKeys capacity (keys ++ [key])) (unknown : key ∉ firstKeys capacity keys) :
    key ∉ keys := by
  intro old
  rw [firstKeys_append_of_mem capacity old] at first
  exact unknown first

namespace BoundedMap

variable {ε : Type} [Keyed ε] {map stored : BoundedMap ε} {entry : ε}

theorem length_keys (map : BoundedMap ε) : map.keys.length = map.entries.length :=
  List.length_map _

theorem keys_of_store? (accepted : map.store? entry = some stored) :
    (Keyed.key entry ∈ map.keys ∧ stored.keys = map.keys) ∨
    (Keyed.key entry ∉ map.keys ∧ map.entries.length < map.capacity ∧
      stored.keys = map.keys ++ [Keyed.key entry]) := by
  unfold store? at accepted
  split at accepted
  · rename_i known
    cases accepted
    exact Or.inl ⟨known, map_key_replace entry map.entries⟩
  · rename_i new
    split at accepted <;> cases accepted
    rename_i room
    exact Or.inr ⟨new, room, List.map_append⟩

end BoundedMap

namespace ProbeTable

variable {ε : Type} [Keyed ε]

/-- Being taught, a table stores what the map stores, and keeps to itself what
the map has no room for. -/
theorem Represents.learn {table : ProbeTable ε} {map : BoundedMap ε}
    (represents : table.Represents map) (entry : ε) :
    (table.learn entry).Represents ((map.store? entry).getD map) := by
  cases ends : table.find (Keyed.key entry) with
  | held slot =>
    rcases represents.putAt_held ends with ⟨stored, accepted, follows⟩
    simp only [ProbeTable.learn, remember, ends, accepted, Option.getD_some]
    exact follows
  | vacant slot =>
    rcases represents.putAt_vacant ends with ⟨stored, accepted, follows⟩
    simp only [ProbeTable.learn, remember, ends, accepted, Option.getD_some]
    exact follows
  | nowhere =>
    simp only [ProbeTable.learn, remember, ends, represents.store?_of_nowhere ends,
      Option.getD_none]
    exact represents

/-- The table has been taught these keys in this order, and now has the given
entry for each of those it knows. -/
structure Learned (table : ProbeTable ε) (capacity : Nat) (keys : List UInt64)
    (current : UInt64 → Option ε) : Prop where
  represented : ∃ map, table.Represents map ∧ map.capacity = capacity ∧
    map.keys = firstKeys capacity keys
  known : ∀ key ∈ firstKeys capacity keys, table.get? key = current key

variable {table : ProbeTable ε} {capacity : Nat} {keys : List UInt64}
  {current changed : UInt64 → Option ε}

theorem learned_of_create {name : String} (made : create name capacity = .ok table)
    (current : UInt64 → Option ε) : table.Learned capacity [] current where
  represented := ⟨_, represents_of_create made, rfl, (List.take_nil).symm⟩
  known key first := by cases mem_of_mem_firstKeys first

theorem Learned.get?_eq (learned : table.Learned capacity keys current) (key : UInt64) :
    table.get? key = if key ∈ firstKeys capacity keys then current key else none := by
  split
  · rename_i first
    exact learned.known key first
  · rename_i late
    rcases learned.represented with ⟨map, represents, -, listed⟩
    rw [← listed, map.mem_keys_iff] at late
    rw [represents.get?_eq]
    exact Decidable.not_not.mp late

/-- Of a key that has a slot or gets one now, a table has been told everything. -/
theorem Learned.get?_of_first (learned : table.Learned capacity keys current) {key : UInt64}
    (first : key ∈ firstKeys capacity (keys ++ [key])) (untold : key ∉ keys → current key = none) :
    table.get? key = current key := by
  rw [learned.get?_eq]
  split
  · rfl
  · rename_i unknown
    exact (untold (not_mem_of_mem_firstKeys_append first unknown)).symm

theorem Learned.contains_iff (learned : table.Learned capacity keys current) (key : UInt64) :
    table.contains key = true ↔ key ∈ firstKeys capacity keys := by
  rcases learned.represented with ⟨map, represents, -, listed⟩
  rw [represents.contains_eq, Option.isSome_iff_ne_none, ← map.mem_keys_iff, listed]

/-- A known key may come again without being taught, if its entry is to stay. -/
theorem Learned.again (learned : table.Learned capacity keys current) {key : UInt64}
    (known : key ∈ firstKeys capacity keys)
    (same : ∀ other ∈ firstKeys capacity keys, changed other = current other) :
    table.Learned capacity (keys ++ [key]) changed := by
  have unchanged := firstKeys_append_of_mem capacity (mem_of_mem_firstKeys known)
  constructor
  · rw [unchanged]
    exact learned.represented
  · intro other first
    rw [unchanged] at first
    rw [learned.known other first, same other first]

/-- Teaching an entry adds its key, if there is room, and changes what is known
for this key only. -/
theorem Learned.learn (learned : table.Learned capacity keys current) {entry : ε} {key : UInt64}
    (keyed : Keyed.key entry = key)
    (own : key ∈ firstKeys capacity (keys ++ [key]) → changed key = some entry)
    (others : ∀ other, other ≠ key → changed other = current other) :
    (table.learn entry).Learned capacity (keys ++ [key]) changed := by
  subst keyed
  rcases learned.represented with ⟨map, represents, size, listed⟩
  have length : (firstKeys capacity keys).length = map.entries.length := by
    rw [← listed, map.length_keys]
  have follows := represents.learn entry
  cases accepted : map.store? entry with
  | none =>
    rcases (map.store?_eq_none_iff entry).mp accepted with ⟨absent, full⟩
    rw [accepted, Option.getD_none] at follows
    have unchanged := firstKeys_append_of_full (length.trans (full.trans size)) (Keyed.key entry)
    have new : Keyed.key entry ∉ firstKeys capacity keys := by
      rw [← listed, map.mem_keys_iff]
      exact fun known => known absent
    refine ⟨⟨map, follows, size, listed.trans unchanged.symm⟩, ?_⟩
    intro other first
    rw [unchanged] at first
    have apart : other ≠ Keyed.key entry := fun same => new (same ▸ first)
    rw [follows.get?_eq, ← represents.get?_eq, learned.known other first, others other apart]
  | some stored =>
    rw [accepted, Option.getD_some] at follows
    have listedNow : stored.keys = firstKeys capacity (keys ++ [Keyed.key entry]) := by
      rcases BoundedMap.keys_of_store? accepted with ⟨known, same⟩ | ⟨new, room, added⟩
      · rw [listed] at known
        rw [same, listed, firstKeys_append_of_mem capacity (mem_of_mem_firstKeys known)]
      · rw [listed] at new
        rw [added, listed, firstKeys_append_of_room (length ▸ size ▸ room) new]
    refine ⟨⟨stored, follows, (BoundedMap.capacity_of_store? accepted).trans size, listedNow⟩, ?_⟩
    intro other first
    rw [follows.get?_eq, BoundedMap.lookup_of_store? accepted]
    split
    · rename_i same
      subst same
      exact (own first).symm
    · rename_i apart
      have before := (mem_firstKeys_append first).resolve_left (Ne.symm apart)
      rw [← represents.get?_eq, learned.known other before, others other (Ne.symm apart)]

end ProbeTable
end BranchPipeline
