import BranchPipeline.Configuration
import BranchPipeline.Json.Value
import BranchPipeline.Json.Writer

namespace BranchPipeline

/-!
# Configuration files

A configuration file is a JSON object with any of the fields of a
configuration, or an array with their values in order, of which the last ones
may be missing.  What is not given has its default.  An object must not name a
field twice or name one that does not exist.
-/

/-- Why a configuration file could not be used. -/
inductive ConfigurationFileFault where
  | unreadable (fault : Json.Fault)
  | refused (fault : ConfigurationFault)
  deriving DecidableEq, Repr

inductive ConfigurationField where
  | size (dimension : Dimension)
  | cycleLimit
  deriving DecidableEq, Repr

namespace ConfigurationField

def all : List ConfigurationField :=
  Dimension.all.map size ++ [cycleLimit]

def key : ConfigurationField → String
  | size dimension => dimension.key
  | cycleLimit => "cycle_limit"

/-- The complaint about a name that no field has. -/
def unknownMessage (name : String) : String :=
  s!"unknown field `{name}`, expected one of " ++
    String.intercalate ", " (all.map fun field => "`" ++ field.key ++ "`")

def named (name : String) : Except Json.Fault ConfigurationField :=
  match all.find? fun field => field.key == name with
  | some field => .ok field
  | none => .error (.unfit (unknownMessage name))

def readInto (field : ConfigurationField) (configuration : Configuration)
    (input : List Char) : Except Json.Fault (Configuration × List Char) :=
  match field with
  | size dimension => do
    let (count, rest) ← Json.readCount input
    return (configuration.set dimension count.toNat, rest)
  | cycleLimit => do
    let (limit, rest) ← Json.readOptionalCount input
    return ({ configuration with cycleLimit := limit.map UInt64.toNat }, rest)

end ConfigurationField

namespace Configuration

/-- Reads a member of an object; the state holds the fields named so far. -/
def readMember (state : List ConfigurationField × Configuration) (input : List Char) :
    Except Json.Fault ((List ConfigurationField × Configuration) × List Char) := do
  let (name, rest) ← Json.readKey input
  let field ← ConfigurationField.named name
  if field ∈ state.1 then .error (.unfit s!"duplicate field `{name}`")
  else
    let rest ← Json.readColon rest
    let (configuration, rest) ← field.readInto state.2 rest
    return ((field :: state.1, configuration), rest)

/-- Reads an item of an array; the state holds the fields that are still to
come.  There is no item behind the last field. -/
def readItem (state : List ConfigurationField × Configuration) (input : List Char) :
    Except Json.Fault ((List ConfigurationField × Configuration) × List Char) :=
  match state.1 with
  | [] => .error .malformed
  | field :: fields => do
    let (configuration, rest) ← field.readInto state.2 input
    return ((fields, configuration), rest)

/-- Reads the fields of a configuration, without judging their values. -/
def readFields (input : List Char) : Except Json.Fault (Configuration × List Char) :=
  match Json.skipBlanks input with
  | '\x7b' :: rest => do
    let ((_, configuration), rest) ← Json.readItems '\x7d' readMember ([], {}) rest
    return (configuration, rest)
  | '[' :: rest => do
    let ((_, configuration), rest) ←
      Json.readItems ']' readItem (ConfigurationField.all, {}) rest
    return (configuration, rest)
  | input => Json.refuse "struct CpuConfig" input

/-- Reads a configuration file and checks that its sizes work together. -/
def read (text : String) : Except ConfigurationFileFault Configuration := do
  let (configuration, rest) ← (readFields text.toList).mapError .unreadable
  (Json.readEnd rest).mapError ConfigurationFileFault.unreadable
  configuration.check.mapError ConfigurationFileFault.refused
  return configuration

/-- The value of a field as it is written. -/
def fieldJson (configuration : Configuration) : ConfigurationField → String
  | .size dimension => toString (configuration.get dimension)
  | .cycleLimit =>
    match configuration.cycleLimit with
    | some limit => toString limit
    | none => "null"

/-- The configuration as a file without blanks. -/
def json (configuration : Configuration) : String :=
  Json.compactObject
    (ConfigurationField.all.map fun field => (field.key, configuration.fieldJson field))

end Configuration
end BranchPipeline
