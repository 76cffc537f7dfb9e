import BranchPipeline.Configuration
import BranchPipeline.Prediction.History
import BranchPipeline.Prediction.Table

namespace BranchPipeline

/-!
# Prediction from global history

The predictor mixes the address of a branch with the global history and looks
the result up in the direction table.  A prediction is shifted into the
history at once, before it is known to be right.  What it pushes out waits in
the queue of outstanding predictions, so the confirmed history can always be
rebuilt: it is the evicted directions followed by the history, cut to length.

A branch whose address is not in the target table is not predicted and enters
neither the history nor the queue.  When it turns out not to be taken, its
outcome belongs below all outstanding predictions, since those are younger,
and is put there.
-/

/-- A prediction that has not been confirmed yet. -/
structure Outstanding where
  /-- The direction that the prediction pushed out of the history. -/
  evicted : Bool
  source : UInt64
  predicted : Bool
  deriving DecidableEq, Repr

/-- The prediction as reports show it. -/
def Outstanding.text (outstanding : Outstanding) : String :=
  s!"@{outstanding.source} predicted " ++ directionText outstanding.predicted ++
    " (evicted " ++ (if outstanding.evicted then "1" else "0") ++ ")"

/-- History, outstanding predictions and the two tables. -/
structure Gshare where
  history : History
  outstanding : Ring Outstanding
  targets : TargetTable
  directions : DirectionTable Bool

namespace Gshare

/-- A predictor that has seen no branch. -/
def create (configuration : Configuration) : Except BufferFault Gshare := do
  let history ← History.create configuration.historyLength
  let outstanding ← Ring.create "outstanding branch queue" configuration.outstandingCapacity
  let targets ← TargetTable.create configuration.targetCapacity
  let directions ← DirectionTable.create Bool configuration.directionCapacity
  return { history, outstanding, targets, directions }

/-- The history with every outstanding prediction undone. -/
def confirmed (gshare : Gshare) : List Bool :=
  (gshare.outstanding.toList.map (·.evicted) ++ gshare.history.toList).take
    gshare.history.length

/-- The last directions of a list, as many as a history has room for. -/
def latest (length : Nat) (directions : List Bool) : List Bool :=
  directions.drop (directions.length - length)

/-- The index under which the direction of a branch is looked up. -/
def directionIndex (directions : List Bool) (source : UInt64) : UInt64 :=
  History.indexOf directions ^^^ source

def resetHistory (directions : List Bool) : Attempt Gshare BufferFault Unit := do
  let gshare ← get
  let history ← Attempt.ofExcept id (gshare.history.reset directions)
  set { gshare with history }

def dropOutstanding : Attempt Gshare BufferFault Unit :=
  modify fun gshare => { gshare with outstanding := gshare.outstanding.flush }

def queue (prediction : Outstanding) : Attempt Gshare BufferFault Unit := do
  let gshare ← get
  let outstanding ← Attempt.ofExcept id (gshare.outstanding.add prediction)
  set { gshare with outstanding }

/-- The address from which to fetch after the one given.  An address in the
target table is a branch; it is predicted to be taken unless its index says
otherwise. -/
def predict (source : UInt64) : Attempt Gshare BufferFault UInt64 := do
  let gshare ← get
  match gshare.targets.get? source with
  | none => return source + 1
  | some target =>
    let index := directionIndex gshare.history.toList source
    let taken := ((gshare.directions.get? index).map (·.certainty)).getD true
    let (evicted, history) ← Attempt.ofExcept id (gshare.history.push taken)
    set { gshare with history }
    queue { evicted, source, predicted := taken }
    return if taken then target.destination else source + 1

/-- Puts the outcome of a branch that was not predicted below all outstanding
predictions.  Each of these then pushes out the direction that stands one
history length before it. -/
def insertConfirmed (confirmed : List Bool) (taken : Bool) :
    Attempt Gshare BufferFault Unit := do
  let gshare ← get
  let pending := gshare.outstanding.toList
  let directions := confirmed ++ taken :: pending.map (·.predicted)
  resetHistory (latest gshare.history.length directions)
  dropOutstanding
  let moved := List.zipWith (fun prediction evicted => { prediction with evicted })
    pending (directions.drop 1)
  moved.forM queue

/-- Takes the outcome of a branch into the tables. -/
def learn (index source destination : UInt64) (taken : Bool) (gshare : Gshare) : Gshare :=
  { gshare with
    directions := gshare.directions.learn ⟨index, taken⟩
    targets := gshare.targets.learn ⟨source, destination⟩ }

/-- Takes the outcome of a resolved branch into the tables and the history.
A prediction that came true leaves the queue.  A branch that was not predicted
and not taken is put below the queue.  In all other cases the predictions in
the queue were made on a wrong path, so the history is rebuilt without them. -/
def update (source destination : UInt64) (taken : Bool) : Attempt Gshare BufferFault Unit := do
  let confirmed := (← get).confirmed
  modify (learn (directionIndex confirmed source) source destination taken)
  let gshare ← get
  let head := gshare.outstanding.oldest?.filter fun prediction => prediction.source == source
  match head with
  | some prediction =>
    if prediction.predicted == taken then
      set { gshare with outstanding := gshare.outstanding.remove.2 }
    else rebuild confirmed
  | none =>
    if taken then rebuild confirmed
    else insertConfirmed confirmed taken
where
  /-- The confirmed history with the outcome, and no outstanding prediction. -/
  rebuild (confirmed : List Bool) : Attempt Gshare BufferFault Unit := do
    let gshare ← get
    resetHistory (latest gshare.history.length (confirmed ++ [taken]))
    dropOutstanding

/-- Undoes all outstanding predictions. -/
def squash : Attempt Gshare BufferFault Unit := do
  let gshare ← get
  if gshare.outstanding.isEmpty then return
  resetHistory gshare.confirmed
  dropOutstanding

/-- The state as reports show it. -/
def view (gshare : Gshare) : String :=
  gshare.history.text ++ "\n" ++ gshare.outstanding.view Outstanding.text ++ "\n" ++
    gshare.targets.view TargetEntry.text ++ "\n" ++
    gshare.directions.view (DirectionEntry.text directionText)

end Gshare
end BranchPipeline
