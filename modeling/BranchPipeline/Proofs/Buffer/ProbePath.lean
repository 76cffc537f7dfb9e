import BranchPipeline.Proofs.Buffer.Stored

namespace BranchPipeline
namespace ProbeTable

/-!
# Paths through a probe table

The path of a key visits every slot once, starting at the slot that the key
names.  A search follows the path as long as it meets other keys, so it may stop
at a free slot only if no entry stands behind a free slot of its own path.  That
is the invariant of a probe table, together with the fact that no key is stored
twice.  Entries are written where a search has ended, and are never taken out,
and for both reasons the invariant stays: the slots in front of the new entry
have just been seen occupied, and no occupied slot becomes free.
-/

variable {ε : Type}

/-- The slot that the path of a key reaches after so many steps. -/
def path (table : ProbeTable ε) (key : UInt64) (steps : Nat) : Nat :=
  (key.toNat % table.capacity + steps) % table.capacity

theorem path_zero (table : ProbeTable ε) (key : UInt64) :
    table.path key 0 = key.toNat % table.capacity := by
  rw [path, Nat.add_zero, Nat.mod_mod]

theorem path_succ (table : ProbeTable ε) (key : UInt64) (steps : Nat) :
    table.path key (steps + 1) = (table.path key steps + 1) % table.capacity := by
  rw [path, path, Nat.mod_add_mod _ _ 1, Nat.add_assoc]

theorem path_lt (table : ProbeTable ε) (key : UInt64) {steps : Nat}
    (within : steps < table.capacity) : table.path key steps < table.capacity :=
  Nat.mod_lt _ (Nat.zero_lt_of_lt within)

/-- Within one round the path comes to every slot. -/
theorem exists_path_eq (table : ProbeTable ε) (key : UInt64) {slot : Nat}
    (within : slot < table.capacity) :
    ∃ steps, steps < table.capacity ∧ table.path key steps = slot := by
  have home : key.toNat % table.capacity < table.capacity :=
    Nat.mod_lt _ (Nat.zero_lt_of_lt within)
  by_cases behind : key.toNat % table.capacity ≤ slot
  · refine ⟨slot - key.toNat % table.capacity, by omega, ?_⟩
    rw [path, Nat.add_sub_cancel' behind, Nat.mod_eq_of_lt within]
  · refine ⟨slot + table.capacity - key.toNat % table.capacity, by omega, ?_⟩
    rw [path, Nat.add_sub_cancel' (by omega), Nat.add_mod_right, Nat.mod_eq_of_lt within]

theorem capacity_of_create {name : String} {capacity : Nat} {table : ProbeTable ε}
    (made : create name capacity = .ok table) : table.capacity = capacity := by
  unfold create at made
  split at made
  · cases made
  · cases made
    exact Array.size_replicate

theorem name_of_create {name : String} {capacity : Nat} {table : ProbeTable ε}
    (made : create name capacity = .ok table) : table.name = name := by
  unfold create at made
  split at made
  · cases made
  · cases made
    rfl

theorem lt_capacity_of_entryAt? {table : ProbeTable ε} {slot : Nat} {entry : ε}
    (found : table.entryAt? slot = some entry) : slot < table.capacity := by
  refine Nat.lt_of_not_le fun beyond => ?_
  rw [entryAt?, Array.getElem?_eq_none beyond] at found
  cases found

/-! ## Writing into a slot -/

@[simp]
theorem capacity_putAt (table : ProbeTable ε) (slot : Nat) (entry : ε) :
    (table.putAt slot entry).capacity = table.capacity :=
  Array.size_setIfInBounds

theorem path_putAt (table : ProbeTable ε) (slot : Nat) (entry : ε) (key : UInt64) (steps : Nat) :
    (table.putAt slot entry).path key steps = table.path key steps := by
  rw [path, path, capacity_putAt]

theorem entryAt?_putAt_self {table : ProbeTable ε} {slot : Nat} (within : slot < table.capacity)
    (entry : ε) : (table.putAt slot entry).entryAt? slot = some entry := by
  rw [entryAt?, putAt, Array.getElem?_setIfInBounds_self_of_lt within]
  rfl

theorem entryAt?_putAt_of_ne {table : ProbeTable ε} {slot place : Nat} (other : slot ≠ place)
    (entry : ε) : (table.putAt slot entry).entryAt? place = table.entryAt? place := by
  rw [entryAt?, putAt, Array.getElem?_setIfInBounds_ne other, entryAt?]

/-- An occupied slot stays occupied. -/
theorem occupied_putAt {table : ProbeTable ε} {place : Nat} (slot : Nat) (entry : ε)
    (occupied : table.entryAt? place ≠ none) : (table.putAt slot entry).entryAt? place ≠ none := by
  by_cases same : slot = place
  · subst same
    rcases Option.ne_none_iff_exists'.mp occupied with ⟨held, found⟩
    rw [entryAt?_putAt_self (lt_capacity_of_entryAt? found)]
    exact Option.some_ne_none entry
  · rwa [entryAt?_putAt_of_ne same]

/-! ## Where a search ends -/

variable [Keyed ε]

/-- The first so many slots on the path of a key hold other keys. -/
def Passes (table : ProbeTable ε) (key : UInt64) (steps : Nat) : Prop :=
  ∀ earlier < steps, ∃ entry,
    table.entryAt? (table.path key earlier) = some entry ∧ Keyed.key entry ≠ key

theorem Passes.succ {table : ProbeTable ε} {key : UInt64} {steps : Nat} {entry : ε}
    (passes : table.Passes key steps)
    (found : table.entryAt? (table.path key steps) = some entry) (other : Keyed.key entry ≠ key) :
    table.Passes key (steps + 1) := by
  intro earlier before
  rcases Nat.lt_succ_iff_lt_or_eq.mp before with sooner | rfl
  · exact passes earlier sooner
  · exact ⟨entry, found, other⟩

/-- What the end of a search for a key says about the path of the key. -/
def EndsAt (table : ProbeTable ε) (key : UInt64) : Place → Prop
  | .held slot => ∃ steps, steps < table.capacity ∧ slot = table.path key steps ∧
      table.Passes key steps ∧ ∃ entry, table.entryAt? slot = some entry ∧ Keyed.key entry = key
  | .vacant slot => ∃ steps, steps < table.capacity ∧ slot = table.path key steps ∧
      table.Passes key steps ∧ table.entryAt? slot = none
  | .nowhere => table.Passes key table.capacity

theorem endsAt_searchFrom {table : ProbeTable ε} {key : UInt64} {steps remaining : Nat}
    (round : steps + remaining = table.capacity) (passes : table.Passes key steps) :
    table.EndsAt key (table.searchFrom key (table.path key steps) remaining) := by
  induction remaining generalizing steps with
  | zero =>
    rw [Nat.add_zero] at round
    exact round ▸ passes
  | succ remaining inductionHypothesis =>
    have within : steps < table.capacity := by omega
    cases found : table.entryAt? (table.path key steps) with
    | none =>
      rw [searchFrom, found]
      exact ⟨steps, within, rfl, passes, found⟩
    | some entry =>
      rw [searchFrom, found]
      dsimp only
      split
      · rename_i same
        exact ⟨steps, within, rfl, passes, entry, found, beq_iff_eq.mp same⟩
      · rename_i other
        rw [← path_succ]
        exact inductionHypothesis (by omega)
          (passes.succ found fun same => other (beq_iff_eq.mpr same))

theorem endsAt_find (table : ProbeTable ε) (key : UInt64) :
    table.EndsAt key (table.find key) := by
  have nonePassed : table.Passes key 0 :=
    fun earlier before => absurd before (Nat.not_lt_zero earlier)
  rw [find, ← path_zero]
  exact endsAt_searchFrom (Nat.zero_add table.capacity) nonePassed

/-! ## The invariant -/

/-- No key is stored twice, and the path of every stored key is occupied from
its start up to the key's own slot. -/
structure Placed (table : ProbeTable ε) : Prop where
  unique : ∀ {slot place : Nat} {entry other : ε}, table.entryAt? slot = some entry →
    table.entryAt? place = some other → Keyed.key entry = Keyed.key other → slot = place
  unbroken : ∀ {slot : Nat} {entry : ε}, table.entryAt? slot = some entry →
    ∃ steps, steps < table.capacity ∧ slot = table.path (Keyed.key entry) steps ∧
      ∀ earlier < steps, table.entryAt? (table.path (Keyed.key entry) earlier) ≠ none

theorem entryAt?_of_create {name : String} {capacity : Nat} {table : ProbeTable ε}
    (made : create name capacity = .ok table) (slot : Nat) : table.entryAt? slot = none := by
  cases found : table.entryAt? slot with
  | none => rfl
  | some entry => exact absurd ⟨slot, entry, found, rfl⟩ (not_stores_of_create made _)

theorem placed_of_create {name : String} {capacity : Nat} {table : ProbeTable ε}
    (made : create name capacity = .ok table) : table.Placed where
  unique {slot _ _ _} found _ _ := by
    rw [entryAt?_of_create made slot] at found
    cases found
  unbroken {slot _} found := by
    rw [entryAt?_of_create made slot] at found
    cases found

/-- Behind a free slot of its path no key is stored, and neither is one whose
whole path is taken by others: a search that does not find a key may stop. -/
theorem Placed.not_stores {table : ProbeTable ε} {key : UInt64} (placed : table.Placed)
    (absent : ∀ slot, table.find key ≠ .held slot) : ¬ table.Stores key := by
  rintro ⟨slot, entry, found, rfl⟩
  rcases placed.unbroken found with ⟨own, within, rfl, occupied⟩
  have ends := table.endsAt_find (Keyed.key entry)
  have apart : ∀ steps, table.Passes (Keyed.key entry) steps → steps ≤ own := by
    intro steps passes
    refine Nat.le_of_not_lt fun beyond => ?_
    rcases passes own beyond with ⟨other, there, differs⟩
    rw [found] at there
    exact differs (congrArg Keyed.key (Option.some.inj there).symm)
  cases place : table.find (Keyed.key entry) with
  | held slot => exact absent slot place
  | vacant slot =>
    rw [place] at ends
    rcases ends with ⟨steps, -, rfl, passes, free⟩
    rcases Nat.lt_or_eq_of_le (apart steps passes) with sooner | rfl
    · exact occupied steps sooner free
    · rw [found] at free
      cases free
  | nowhere =>
    rw [place] at ends
    exact Nat.not_le_of_lt within (apart table.capacity ends)

/-- A stored key is found where it stands. -/
theorem Placed.find_eq_held {table : ProbeTable ε} {slot : Nat} {entry : ε}
    (placed : table.Placed) (found : table.entryAt? slot = some entry) :
    table.find (Keyed.key entry) = .held slot := by
  have ends := table.endsAt_find (Keyed.key entry)
  have stored : table.Stores (Keyed.key entry) := ⟨slot, entry, found, rfl⟩
  cases place : table.find (Keyed.key entry) with
  | held other =>
    rw [place] at ends
    rcases ends with ⟨-, -, -, -, held, there, same⟩
    rw [placed.unique there found same]
  | vacant free =>
    refine absurd stored (placed.not_stores fun slot held => ?_)
    cases place.symm.trans held
  | nowhere =>
    refine absurd stored (placed.not_stores fun slot held => ?_)
    cases place.symm.trans held

theorem Placed.get?_eq {table : ProbeTable ε} {slot : Nat} {entry : ε} (placed : table.Placed)
    (found : table.entryAt? slot = some entry) : table.get? (Keyed.key entry) = some entry := by
  rw [get?, placed.find_eq_held found]
  exact found

/-! ## Storing an entry keeps it -/

/-- An entry may go where its key already stands, or where the search for its
key has met a free slot. -/
theorem Placed.putAt {table : ProbeTable ε} {slot : Nat} {entry : ε} (placed : table.Placed)
    (ends : table.find (Keyed.key entry) = .held slot ∨
      table.find (Keyed.key entry) = .vacant slot) : (table.putAt slot entry).Placed := by
  have reached : ∃ steps, steps < table.capacity ∧ slot = table.path (Keyed.key entry) steps ∧
      table.Passes (Keyed.key entry) steps := by
    have endsAt := table.endsAt_find (Keyed.key entry)
    rcases ends with held | vacant
    · rw [held] at endsAt
      rcases endsAt with ⟨steps, within, same, passes, -⟩
      exact ⟨steps, within, same, passes⟩
    · rw [vacant] at endsAt
      rcases endsAt with ⟨steps, within, same, passes, -⟩
      exact ⟨steps, within, same, passes⟩
  -- no other slot holds the key of the entry
  have only : ∀ {place : Nat} {other : ε}, table.entryAt? place = some other →
      Keyed.key other = Keyed.key entry → place = slot := by
    intro place other found same
    have held := placed.find_eq_held found
    rw [same] at held
    rcases ends with found | found
    · exact Place.held.inj (held.symm.trans found)
    · cases held.symm.trans found
  rcases reached with ⟨steps, within, rfl, passes⟩
  have inside := table.path_lt (Keyed.key entry) within
  constructor
  · intro first second one other foundOne foundOther same
    by_cases isFirst : table.path (Keyed.key entry) steps = first
    · by_cases isSecond : table.path (Keyed.key entry) steps = second
      · exact isFirst.symm.trans isSecond
      · subst isFirst
        rw [entryAt?_putAt_self inside] at foundOne
        rw [entryAt?_putAt_of_ne isSecond] at foundOther
        cases foundOne
        exact (only foundOther same.symm).symm
    · by_cases isSecond : table.path (Keyed.key entry) steps = second
      · subst isSecond
        rw [entryAt?_putAt_self inside] at foundOther
        rw [entryAt?_putAt_of_ne isFirst] at foundOne
        cases foundOther
        exact only foundOne same
      · rw [entryAt?_putAt_of_ne isFirst] at foundOne
        rw [entryAt?_putAt_of_ne isSecond] at foundOther
        exact placed.unique foundOne foundOther same
  · intro place held found
    by_cases same : table.path (Keyed.key entry) steps = place
    · subst same
      rw [entryAt?_putAt_self inside] at found
      cases found
      refine ⟨steps, (capacity_putAt table _ entry).symm ▸ within, (path_putAt ..).symm, ?_⟩
      intro earlier before
      rcases passes earlier before with ⟨other, there, -⟩
      rw [path_putAt]
      exact occupied_putAt _ _ (there ▸ Option.some_ne_none other)
    · rw [entryAt?_putAt_of_ne same] at found
      rcases placed.unbroken found with ⟨own, inTable, there, occupied⟩
      refine ⟨own, (capacity_putAt table _ entry).symm ▸ inTable,
        there.trans (path_putAt ..).symm, ?_⟩
      intro earlier before
      rw [path_putAt]
      exact occupied_putAt _ _ (occupied earlier before)

end ProbeTable
end BranchPipeline
