import BranchPipeline.Prediction.Gshare

namespace BranchPipeline

/-!
# Branch predictors

Five schemes say from where to fetch after an address.  Around the scheme, a
predictor is stalled at the start and after every redirect; the first
prediction then is the given address itself, so that the instruction to which
the processor was redirected is fetched.
-/

inductive PredictorKind where
  | alwaysNotTaken
  | alwaysTaken
  | oneBit
  | twoBit
  | gshare
  deriving DecidableEq, Repr

namespace PredictorKind

/-- All schemes, in the order in which they are run. -/
def all : List PredictorKind := [alwaysNotTaken, alwaysTaken, oneBit, twoBit, gshare]

def name : PredictorKind → String
  | alwaysNotTaken => "always-not-taken"
  | alwaysTaken => "always-taken"
  | oneBit => "one-bit"
  | twoBit => "two-bit"
  | gshare => "gshare"

/-- The scheme with the given name. -/
def named? (name : String) : Option PredictorKind :=
  all.find? fun kind => kind.name == name

/-- What to say of a name that no scheme has. -/
def unknownMessage (name : String) : String :=
  s!"unknown predictor `{name}` (expected one of " ++
    String.intercalate ", " (all.map PredictorKind.name) ++ ")"

end PredictorKind

/-- The state of a prediction scheme. -/
inductive Strategy where
  | alwaysNotTaken
  | alwaysTaken (targets : TargetTable)
  | oneBit (targets : TargetTable) (directions : DirectionTable Bool)
  | twoBit (targets : TargetTable) (directions : DirectionTable SaturatingCounter)
  | gshare (state : Gshare)

namespace Strategy

/-- A scheme that has seen no branch. -/
def create (configuration : Configuration) : PredictorKind → Except BufferFault Strategy
  | .alwaysNotTaken => .ok alwaysNotTaken
  | .alwaysTaken => do
    let targets ← TargetTable.create configuration.targetCapacity
    return alwaysTaken targets
  | .oneBit => do
    let targets ← TargetTable.create configuration.targetCapacity
    let directions ← DirectionTable.create Bool configuration.directionCapacity
    return oneBit targets directions
  | .twoBit => do
    let targets ← TargetTable.create configuration.targetCapacity
    let directions ← DirectionTable.create SaturatingCounter configuration.directionCapacity
    return twoBit targets directions
  | .gshare => do
    let state ← Gshare.create configuration
    return gshare state

def kind : Strategy → PredictorKind
  | alwaysNotTaken => .alwaysNotTaken
  | alwaysTaken _ => .alwaysTaken
  | oneBit _ _ => .oneBit
  | twoBit _ _ => .twoBit
  | gshare _ => .gshare

/-- The address after a branch that may be taken: the known target if there
is one and the direction is "taken". -/
def follow (targets : TargetTable) (taken : Bool) (source : UInt64) : UInt64 :=
  match targets.get? source with
  | some target => if taken then target.destination else source + 1
  | none => source + 1

/-- Runs an operation of the history predictor and puts its state back. -/
def withGshare {α : Type} (state : Gshare) (operation : Attempt Gshare BufferFault α) :
    Attempt Strategy BufferFault α := do
  let (result, changed) := operation.perform state
  set (gshare changed)
  Attempt.ofExcept id result

/-- The address from which to fetch after the one given.  An address without
a known direction counts as taken. -/
def predict (source : UInt64) : Attempt Strategy BufferFault UInt64 := do
  match ← get with
  | alwaysNotTaken => return source + 1
  | alwaysTaken targets => return follow targets true source
  | oneBit targets directions =>
    return follow targets (((directions.get? source).map (·.certainty)).getD true) source
  | twoBit targets directions =>
    return follow targets
      (((directions.get? source).map (·.certainty.predictsTaken)).getD true) source
  | gshare state => withGshare state (Gshare.predict source)

/-- Takes in the outcome of a branch, with the target that it has when taken.
The scheme that always follows keeps the first target of a branch; the others
keep the latest. -/
def update (source destination : UInt64) (taken : Bool) :
    Attempt Strategy BufferFault Unit := do
  match ← get with
  | alwaysNotTaken => return
  | alwaysTaken targets =>
    if !targets.contains source then
      set (alwaysTaken (targets.learn ⟨source, destination⟩))
  | oneBit targets directions =>
    set (oneBit (targets.learn ⟨source, destination⟩) (directions.learn ⟨source, taken⟩))
  | twoBit targets directions =>
    let counter := match directions.get? source with
      | some entry => entry.certainty.record taken
      | none => SaturatingCounter.seeded taken
    set (twoBit (targets.learn ⟨source, destination⟩) (directions.learn ⟨source, counter⟩))
  | gshare state => withGshare state (Gshare.update source destination taken)

/-- Undoes what was derived from predictions that have been dropped. -/
def squash : Attempt Strategy BufferFault Unit := do
  match ← get with
  | gshare state => withGshare state Gshare.squash
  | _ => return

/-- The state as reports show it. -/
def view : Strategy → String
  | alwaysNotTaken => "(no state)"
  | alwaysTaken targets => targets.view TargetEntry.text
  | oneBit targets directions =>
    targets.view TargetEntry.text ++ "\n" ++
      directions.view (DirectionEntry.text directionText)
  | twoBit targets directions =>
    targets.view TargetEntry.text ++ "\n" ++
      directions.view (DirectionEntry.text fun counter => toString counter.level)
  | gshare state => state.view

end Strategy

/-- A scheme, and whether the next prediction passes the address through. -/
structure Predictor where
  stalled : Bool
  strategy : Strategy

namespace Predictor

/-- A stalled predictor that has seen no branch. -/
def create (kind : PredictorKind) (configuration : Configuration) :
    Except BufferFault Predictor := do
  let strategy ← Strategy.create configuration kind
  return { stalled := true, strategy }

def kind (predictor : Predictor) : PredictorKind := predictor.strategy.kind

/-- Runs an operation of the scheme. -/
def onStrategy {α : Type} (operation : Attempt Strategy BufferFault α) :
    Attempt Predictor BufferFault α :=
  Attempt.onPart Predictor.strategy
    (fun strategy predictor => { predictor with strategy }) id operation

/-- The address from which to fetch next, where `source` is the one fetched
last, or the one to go to if the predictor is stalled. -/
def predict (source : UInt64) : Attempt Predictor BufferFault UInt64 := do
  let predictor ← get
  if predictor.stalled then
    set { predictor with stalled := false }
    return source
  else onStrategy (Strategy.predict source)

/-- Takes in the outcome of a branch. -/
def update (source destination : UInt64) (taken : Bool) :
    Attempt Predictor BufferFault Unit :=
  onStrategy (Strategy.update source destination taken)

/-- Lets the next prediction pass its address through, and undoes what was
derived from dropped predictions. -/
def stall : Attempt Predictor BufferFault Unit := do
  modify fun predictor => { predictor with stalled := true }
  onStrategy Strategy.squash

/-- The state as reports show it. -/
def view (predictor : Predictor) : String :=
  predictor.kind.name ++ (if predictor.stalled then " (stalled)" else "") ++ "\n" ++
    predictor.strategy.view

end Predictor
end BranchPipeline
