import BranchPipeline.Buffer.ProbeTable

namespace BranchPipeline

/-!
# Tables that predictors learn from

A predictor keeps two kinds of table.  The branch target buffer says for the
address of a branch where it last went when taken.  The direction buffer says
for an index, which is an address or an address mixed with history, how
certain the predictor is that the branch is taken.
-/

/-- The last known target of a branch. -/
structure TargetEntry where
  source : UInt64
  destination : UInt64
  deriving DecidableEq, Repr

instance : Keyed TargetEntry := ⟨TargetEntry.source⟩

/-- The entry as a table shows it. -/
def TargetEntry.text (entry : TargetEntry) : String :=
  s!"{entry.source} -> {entry.destination}"

/-- What is known about the direction of the branches that share an index. -/
structure DirectionEntry (γ : Type) where
  index : UInt64
  certainty : γ
  deriving DecidableEq, Repr

instance {γ : Type} : Keyed (DirectionEntry γ) := ⟨DirectionEntry.index⟩

/-- The entry as a table shows it. -/
def DirectionEntry.text {γ : Type} (certaintyText : γ → String) (entry : DirectionEntry γ) :
    String :=
  s!"{entry.index}: " ++ certaintyText entry.certainty

/-- The targets of branches by address. -/
abbrev TargetTable := ProbeTable TargetEntry

abbrev DirectionTable (γ : Type) := ProbeTable (DirectionEntry γ)

def TargetTable.create (capacity : Nat) : Except BufferFault TargetTable :=
  ProbeTable.create "branch target buffer" capacity

def DirectionTable.create (γ : Type) (capacity : Nat) : Except BufferFault (DirectionTable γ) :=
  ProbeTable.create "direction buffer" capacity

def directionText (taken : Bool) : String :=
  if taken then "taken" else "not taken"

/-- A counter with four levels.  The upper two predict that the branch is
taken, and one outcome moves the counter by one level, as far as there are
levels. -/
inductive SaturatingCounter where
  | stronglyUntaken
  | weaklyUntaken
  | weaklyTaken
  | stronglyTaken
  deriving DecidableEq, Repr

namespace SaturatingCounter

/-- The level after the first outcome. -/
def seeded (taken : Bool) : SaturatingCounter :=
  if taken then weaklyTaken else weaklyUntaken

/-- One level up. -/
def raised : SaturatingCounter → SaturatingCounter
  | stronglyUntaken => weaklyUntaken
  | weaklyUntaken => weaklyTaken
  | weaklyTaken | stronglyTaken => stronglyTaken

/-- One level down. -/
def lowered : SaturatingCounter → SaturatingCounter
  | stronglyTaken => weaklyTaken
  | weaklyTaken => weaklyUntaken
  | weaklyUntaken | stronglyUntaken => stronglyUntaken

/-- The level after one more outcome. -/
def record (counter : SaturatingCounter) (taken : Bool) : SaturatingCounter :=
  if taken then counter.raised else counter.lowered

/-- The level as a number from zero to three. -/
def level : SaturatingCounter → Nat
  | stronglyUntaken => 0
  | weaklyUntaken => 1
  | weaklyTaken => 2
  | stronglyTaken => 3

def predictsTaken (counter : SaturatingCounter) : Bool :=
  2 ≤ counter.level

end SaturatingCounter
end BranchPipeline
