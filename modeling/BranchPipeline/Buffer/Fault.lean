namespace BranchPipeline

/-!
# Buffer faults

Rings and tables have a fixed number of slots and carry the name under which
they report what they cannot do.
-/

/-- Why a buffer cannot have as many slots as it was to have. -/
inductive SlotFault where
  /-- The buffer of this name was to be made without any slot. -/
  | none (name : String)
  /-- No memory holds that many slots. -/
  | tooMany
  deriving DecidableEq, Repr

def SlotFault.message : SlotFault → String
  | .none name => s!"{name} needs at least one slot"
  | .tooMany => "capacity overflow"

/-- Why a buffer operation failed. -/
inductive BufferFault where
  /-- The buffer could not be made. -/
  | noSlots (fault : SlotFault)
  | ringFull (name : String) (capacity : Nat)
  | tableFull (name : String) (capacity : Nat)
  | notFound (name : String) (key : UInt64)
  deriving DecidableEq, Repr

def BufferFault.message : BufferFault → String
  | .noSlots fault => fault.message
  | .ringFull name capacity => s!"{name} is full ({capacity} entries)"
  | .tableFull name capacity => s!"{name} has no free slot ({capacity} entries)"
  | .notFound name key => s!"{name} has no entry for key {key}"

end BranchPipeline
