import BranchPipeline.MicroOp
import BranchPipeline.Text.Layout

namespace BranchPipeline

/-!
# Traces

A trace says what every stage did in one cycle.
-/

/-- An instruction that was fetched. -/
structure Fetched where
  location : UInt64
  token : String
  speculative : Bool
  deriving DecidableEq, Repr

/-- An instruction that was decoded and issued. -/
structure Decoded where
  location : UInt64
  instruction : String
  group : List MicroOp
  deriving DecidableEq, Repr

/-- A branch that was resolved. -/
structure BranchOutcome where
  location : UInt64
  /-- Where execution goes on. -/
  target : UInt64
  taken : Bool
  mispredicted : Bool
  deriving DecidableEq, Repr

/-- What every stage did in one cycle. -/
structure CycleTrace where
  cycle : Nat
  fetched : Option Fetched := none
  fetchStalled : Bool := false
  decoded : Option Decoded := none
  executed : Option MicroOp := none
  branch : Option BranchOutcome := none
  deriving DecidableEq, Repr

/-- Whether a run goes on after a cycle. -/
inductive Flow where
  | proceed
  | exit
  deriving DecidableEq, Repr

namespace CycleTrace

/-- What the fetch stage did. -/
def fetchText (trace : CycleTrace) : String :=
  match trace.fetched with
  | some fetched =>
    s!"`{fetched.token}` @{fetched.location}" ++ (if fetched.speculative then " *" else "")
  | none => if trace.fetchStalled then "stalled" else "-"

/-- What the decode stage did. -/
def decodeText (trace : CycleTrace) : String :=
  match trace.decoded with
  | some decoded => s!"`{decoded.instruction}` -> [" ++ MicroOp.groupText decoded.group ++ "]"
  | none => "-"

/-- What the execute stage did. -/
def executeText (trace : CycleTrace) : String :=
  match trace.executed with
  | some op => op.text
  | none => "-"

/-- How a branch came out. -/
def branchText (trace : CycleTrace) : String :=
  match trace.branch with
  | some branch =>
    " (" ++ (if branch.mispredicted then "mispredicted" else "predicted") ++ ", " ++
      (if branch.taken then "taken" else "not taken") ++ s!" to {branch.target})"
  | none => ""

def text (trace : CycleTrace) : String :=
  "#" ++ Text.padLeft 10 (toString trace.cycle) '0' ++ ", fetch: " ++ trace.fetchText ++
    ",\tdecode: " ++ trace.decodeText ++ ",\texecute: " ++ trace.executeText ++
    trace.branchText

end CycleTrace
end BranchPipeline
