import BranchPipeline.Buffer.Fault
import BranchPipeline.Text.Layout

namespace BranchPipeline

/-!
# Probe tables

A probe table stores entries in a fixed number of slots.  The search for a key
starts at the slot that the key itself names, modulo the number of slots, and
goes on from slot to slot.  Entries are never removed, so a search may stop at
the first free slot it meets: had the key been stored, it would stand before
that slot.
-/

/-- Entries that are found by a key. -/
class Keyed (ε : Type) where
  key : ε → UInt64

/-- A table of at most `slots.size` entries. -/
structure ProbeTable (ε : Type) where
  name : String
  slots : Array (Option ε)

/-- Where the search for a key ends. -/
inductive Place where
  /-- The slot that holds the key. -/
  | held (slot : Nat)
  /-- The first free slot on the path of a key that is not stored. -/
  | vacant (slot : Nat)
  /-- The key is not stored and no slot is free. -/
  | nowhere
  deriving DecidableEq, Repr

namespace ProbeTable

variable {ε : Type}

/-- An empty table with the given number of slots, of which there must be one. -/
def create (name : String) (capacity : Nat) : Except BufferFault (ProbeTable ε) :=
  if capacity = 0 then .error (.noSlots (.none name))
  else .ok ⟨name, Array.replicate capacity none⟩

/-- The number of slots. -/
def capacity (table : ProbeTable ε) : Nat := table.slots.size

/-- The occupied slots with their entries, in slot order. -/
def entries (table : ProbeTable ε) : List (Nat × ε) :=
  (table.slots.toList.mapIdx fun slot held => held.map fun entry => (slot, entry)).filterMap id

/-- The number of entries. -/
def size (table : ProbeTable ε) : Nat := table.entries.length

/-- The number of free slots. -/
def free (table : ProbeTable ε) : Nat := table.capacity - table.size

def entryAt? (table : ProbeTable ε) (slot : Nat) : Option ε :=
  (table.slots[slot]?).join

variable [Keyed ε]

/-- Searches from a slot on, over as many slots as remain. -/
def searchFrom (table : ProbeTable ε) (key : UInt64) (slot : Nat) : Nat → Place
  | 0 => .nowhere
  | remaining + 1 =>
    match table.entryAt? slot with
    | none => .vacant slot
    | some entry =>
      if Keyed.key entry == key then .held slot
      else searchFrom table key ((slot + 1) % table.capacity) remaining

/-- Where the key is, or else where it would go. -/
def find (table : ProbeTable ε) (key : UInt64) : Place :=
  table.searchFrom key (key.toNat % table.capacity) table.capacity

/-- The entry stored for a key. -/
def get? (table : ProbeTable ε) (key : UInt64) : Option ε :=
  match table.find key with
  | .held slot => table.entryAt? slot
  | _ => none

/-- Whether an entry is stored for a key. -/
def contains (table : ProbeTable ε) (key : UInt64) : Bool :=
  match table.find key with
  | .held _ => true
  | _ => false

/-- Writes an entry into a slot. -/
def putAt (table : ProbeTable ε) (slot : Nat) (entry : ε) : ProbeTable ε :=
  { table with slots := table.slots.setIfInBounds slot (some entry) }

/-- Stores an entry whose key is not stored yet.  Adding a stored key again
changes nothing. -/
def add (table : ProbeTable ε) (entry : ε) : Except BufferFault (ProbeTable ε) :=
  match table.find (Keyed.key entry) with
  | .vacant slot => .ok (table.putAt slot entry)
  | .held _ => .ok table
  | .nowhere => .error (.tableFull table.name table.capacity)

/-- Replaces the entry that has the same key. -/
def update (table : ProbeTable ε) (entry : ε) : Except BufferFault (ProbeTable ε) :=
  match table.find (Keyed.key entry) with
  | .held slot => .ok (table.putAt slot entry)
  | _ => .error (.notFound table.name (Keyed.key entry))

/-- Stores an entry or replaces the one with the same key; a new key is
dropped when no slot is free.  Says whether the entry was stored. -/
def remember (table : ProbeTable ε) (entry : ε) : Bool × ProbeTable ε :=
  match table.find (Keyed.key entry) with
  | .held slot | .vacant slot => (true, table.putAt slot entry)
  | .nowhere => (false, table)

/-- Stores an entry or replaces the one with the same key. -/
def put (table : ProbeTable ε) (entry : ε) : Except BufferFault (ProbeTable ε) :=
  match table.remember entry with
  | (true, stored) => .ok stored
  | (false, _) => .error (.tableFull table.name table.capacity)

/-- Stores an entry if there is room for it, and otherwise forgets it. -/
def learn (table : ProbeTable ε) (entry : ε) : ProbeTable ε :=
  (table.remember entry).2

/-- The table with one line per entry. -/
def view (table : ProbeTable ε) (entryText : ε → String) : String :=
  let lines := table.entries.map fun (slot, entry) =>
    "  " ++ Text.padLeft 3 (toString slot) ++ ": " ++ entryText entry ++ "\n"
  s!"{table.name} ({table.size}/{table.capacity}) \x7b\n" ++ String.join lines ++ "\x7d"

end ProbeTable
end BranchPipeline
