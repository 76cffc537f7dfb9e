namespace BranchPipeline

/-!
# Stages

Each cycle runs execute, decode and fetch, in this order, as far as they are
not stalled.
-/

structure StageSet where
  fetch : Bool
  decode : Bool
  execute : Bool
  deriving DecidableEq, Repr

namespace StageSet

def all : StageSet := ⟨true, true, true⟩

/-- The stages that have nothing to work on before the first fetch. -/
def initial : StageSet := ⟨false, true, true⟩

def names (stages : StageSet) : List String :=
  (if stages.fetch then ["fetch"] else []) ++
    (if stages.decode then ["decode"] else []) ++
    (if stages.execute then ["execute"] else [])

/-- The set as reports show it. -/
def text (stages : StageSet) : String :=
  if stages.names.isEmpty then "none" else String.intercalate ", " stages.names

end StageSet
end BranchPipeline
