import BranchPipeline.Buffer.ProbeTable

namespace BranchPipeline
namespace ProbeTable

/-!
# The keys in a probe table

Where a search ends depends on collisions and on the order in which keys came.
For the question which keys a table can know at all this does not matter: a
search only ends at a slot with its own key, and storing an entry writes no
key but the entry's.
-/

theorem exists_create {ε : Type} (name : String) {capacity : Nat} (positive : 0 < capacity) :
    ∃ table : ProbeTable ε, create name capacity = .ok table := by
  unfold create
  rw [if_neg (Nat.ne_of_gt positive)]
  exact ⟨_, rfl⟩

variable {ε : Type} [Keyed ε]

/-- Some slot holds an entry with this key. -/
def Stores (table : ProbeTable ε) (key : UInt64) : Prop :=
  ∃ slot entry, table.entryAt? slot = some entry ∧ Keyed.key entry = key

/-- An empty table stores no key. -/
theorem not_stores_of_create {name : String} {capacity : Nat} {table : ProbeTable ε}
    (made : create name capacity = .ok table) (key : UInt64) : ¬ table.Stores key := by
  rintro ⟨slot, entry, found, -⟩
  unfold create at made
  split at made
  · cases made
  · cases made
    rw [entryAt?, Array.getElem?_replicate] at found
    split at found <;> cases found

/-- A search ends only at a slot that holds its key. -/
theorem entryAt?_of_searchFrom {table : ProbeTable ε} {key : UInt64} {slot remaining place : Nat}
    (ends : table.searchFrom key slot remaining = .held place) :
    ∃ entry, table.entryAt? place = some entry ∧ Keyed.key entry = key := by
  induction remaining generalizing slot with
  | zero => cases ends
  | succ remaining inductionHypothesis =>
    rw [searchFrom] at ends
    split at ends
    · cases ends
    · rename_i entry found
      split at ends
      · rename_i same
        cases ends
        exact ⟨entry, found, beq_iff_eq.mp same⟩
      · exact inductionHypothesis ends

/-- What is found for a key is stored under it. -/
theorem stores_of_get? {table : ProbeTable ε} {key : UInt64} (found : table.get? key ≠ none) :
    table.Stores key := by
  unfold get? at found
  split at found
  · rename_i slot ends
    exact ⟨slot, entryAt?_of_searchFrom ends⟩
  · exact absurd rfl found

theorem stores_of_putAt {table : ProbeTable ε} {slot : Nat} {entry : ε} {key : UInt64}
    (stored : (table.putAt slot entry).Stores key) : key = Keyed.key entry ∨ table.Stores key := by
  rcases stored with ⟨place, other, found, same⟩
  rw [entryAt?, putAt, Array.getElem?_setIfInBounds] at found
  split at found
  · split at found
    · cases found
      exact Or.inl same.symm
    · cases found
  · exact Or.inr ⟨place, other, found, same⟩

/-- Learning an entry stores no key but the entry's. -/
theorem stores_of_learn {table : ProbeTable ε} {entry : ε} {key : UInt64}
    (stored : (table.learn entry).Stores key) : key = Keyed.key entry ∨ table.Stores key := by
  unfold learn remember at stored
  split at stored
  · exact stores_of_putAt stored
  · exact stores_of_putAt stored
  · exact Or.inr stored

end ProbeTable
end BranchPipeline
