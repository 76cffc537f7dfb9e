import BranchPipeline.Configuration
import BranchPipeline.Prediction.Predictor
import BranchPipeline.Text.Blank

namespace BranchPipeline

/-!
# Arguments of the command line

The first argument names what to do: `run` a program or `list` its
micro-operations.  Behind it stand options.  The value of an option follows it
as an argument of its own, or behind an equals sign, or, for an option of one
letter, directly.  Letters may be joined behind one dash.

The value of an option is looked at when the next option has been recognised
or when the arguments end.  An argument that is not known at all is therefore
reported before a bad value in front of it.
-/

/-- Why the arguments were not accepted, or what was asked for instead. -/
inductive UsageFault where
  | missingValue
  | badValue
  | unneededValue
  | unknownArgument
  | missingArgument
  | unknownCommand
  | repeatedArgument
  | helpRequested
  | versionRequested
  | nothingRequested
  deriving DecidableEq, Repr

def UsageFault.message : UsageFault → String
  | .missingValue => "an option lacks its value"
  | .badValue => "an option has a value that it cannot take"
  | .unneededValue => "an option that takes no value has one"
  | .unknownArgument => "an argument is not known"
  | .missingArgument => "the input is not named: --input <path>"
  | .unknownCommand => "the command is not known"
  | .repeatedArgument => "an option is given twice"
  | .helpRequested | .nothingRequested =>
    "bpsim run --input <path> [--predictor <name>]... [--json <path>] [--config <path>] " ++
      "[--max-cycles <n>] [--rob <n>] [--pipeline <n>] [--memory <n>] [--btb <n>] " ++
      "[--direction <n>] [--ghr <n>] [--obq <n>] [--trace] [--interactive]\n" ++
      "bpsim list --input <path>"
  | .versionRequested => "bpsim"

/-- Whether the arguments asked for nothing but a text. -/
def UsageFault.isAnswer : UsageFault → Bool
  | .helpRequested | .versionRequested => true
  | _ => false

/-- Options that take a value. -/
inductive Setting where
  | input
  | predictor
  | json
  | configuration
  | maxCycles
  | size (dimension : Dimension)
  deriving DecidableEq, Repr

/-- Options that take no value. -/
inductive Switch where
  | interactive
  | trace
  | verbose
  | help
  deriving DecidableEq, Repr

/-- Any option. -/
inductive Flag where
  | setting (setting : Setting)
  | switch (switch : Switch)
  deriving DecidableEq, Repr

/-- What the arguments have said so far. -/
structure Arguments where
  input : Option String := none
  predictors : List PredictorKind := []
  json : Option String := none
  configuration : Option String := none
  maxCycles : Option UInt64 := none
  /-- The sizes that were given, each at most once. -/
  sizes : List (Dimension × UInt64) := []
  interactive : Bool := false
  trace : Bool := false
  verbose : Bool := false
  deriving DecidableEq, Repr

namespace Arguments

/-- A value that is not given yet may be given now. -/
def once {α : Type} (present : Bool) (value : α) : Except UsageFault α :=
  if present then .error .repeatedArgument else .ok value

/-- A path, which must not be empty. -/
def path (text : String) : Except UsageFault String :=
  if text.isEmpty then .error .missingValue else .ok text

def count (text : String) : Except UsageFault UInt64 :=
  match Text.count? text with
  | some number => .ok number
  | none => .error .badValue

/-- The name of a prediction scheme. -/
def predictorKind (text : String) : Except UsageFault PredictorKind :=
  match PredictorKind.named? text with
  | some kind => .ok kind
  | none => .error .badValue

/-- Takes in an option with its value.  That an option stands for the second
time is found before its value is looked at; only schemes may be repeated. -/
def assign (arguments : Arguments) (setting : Setting) (text : String) :
    Except UsageFault Arguments :=
  match setting with
  | .input => do
    let value ← once arguments.input.isSome text >>= path
    return { arguments with input := some value }
  | .predictor => do
    let kind ← predictorKind text
    return { arguments with predictors := arguments.predictors ++ [kind] }
  | .json => do
    let value ← once arguments.json.isSome text >>= path
    return { arguments with json := some value }
  | .configuration => do
    let value ← once arguments.configuration.isSome text >>= path
    return { arguments with configuration := some value }
  | .maxCycles => do
    let value ← once arguments.maxCycles.isSome text >>= count
    return { arguments with maxCycles := some value }
  | .size dimension => do
    let given := arguments.sizes.any fun (other, _) => other == dimension
    let value ← once given text >>= count
    return { arguments with sizes := arguments.sizes ++ [(dimension, value)] }

/-- Takes in an option without a value. -/
def turnOn (arguments : Arguments) : Switch → Except UsageFault Arguments
  | .interactive => once arguments.interactive { arguments with interactive := true }
  | .trace => once arguments.trace { arguments with trace := true }
  | .verbose => once arguments.verbose { arguments with verbose := true }
  | .help => .error .helpRequested

/-- An option whose value is still to be looked at, or still to come. -/
abbrev Pending := Option (Setting × Option String)

/-- Looks at the value of the last option. -/
def settle (arguments : Arguments) : Pending → Except UsageFault Arguments
  | none => .ok arguments
  | some (_, none) => .error .missingValue
  | some (setting, some text) => arguments.assign setting text

/-- Splits a text at its first equals sign. -/
def splitValue (text : List Char) : String × Option String :=
  let name := text.takeWhile (· != '=')
  match text.drop name.length with
  | [] => (String.ofList name, none)
  | _ :: value => (String.ofList name, some (String.ofList value))

/-- The value behind a letter: the rest of the argument, less an equals sign. -/
def valueBehind : List Char → Option String
  | [] => none
  | '=' :: rest => some (String.ofList rest)
  | rest => some (String.ofList rest)

/-- The options that a command knows, by name and by letter. -/
structure Known where
  named : String → Option Flag
  lettered : Char → Option Flag

/-- Takes in an option that has been recognised. -/
def takeSetting (arguments : Arguments) (pending : Pending) (setting : Setting)
    (value : Option String) : Except UsageFault (Arguments × Pending) := do
  let settled ← arguments.settle pending
  match value with
  | some text => return (← settled.assign setting text, none)
  | none => return (settled, some (setting, none))

/-- Takes in the letters behind one dash. -/
def takeLetters (known : Known) (arguments : Arguments) (pending : Pending) :
    List Char → Except UsageFault (Arguments × Pending)
  | [] => .ok (arguments, pending)
  | letter :: rest =>
    match known.lettered letter with
    | none => .error .unknownArgument
    | some (.setting setting) => takeSetting arguments pending setting (valueBehind rest)
    | some (.switch switch) => do
      let settled ← arguments.settle pending
      let turned ← settled.turnOn switch
      takeLetters known turned none rest

def takeNamed (known : Known) (arguments : Arguments) (pending : Pending) (text : List Char) :
    Except UsageFault (Arguments × Pending) :=
  let (name, value) := splitValue text
  match known.named name, value with
  | none, _ => .error .unknownArgument
  | some (.setting setting), _ => takeSetting arguments pending setting value
  | some (.switch _), some _ => .error .unneededValue
  | some (.switch switch), none => do
    let settled ← arguments.settle pending
    return (← settled.turnOn switch, none)

def take (known : Known) (arguments : Arguments) (pending : Pending) (argument : String) :
    Except UsageFault (Arguments × Pending) :=
  match argument.toList with
  | '-' :: '-' :: name => takeNamed known arguments pending name
  | '-' :: letter :: rest => takeLetters known arguments pending (letter :: rest)
  | _ =>
    match pending with
    | some (setting, none) => .ok (arguments, some (setting, some argument))
    | _ => .error .unknownArgument

/-- Takes in all arguments of a command.  Behind two dashes alone there are no
options any more, and nothing else is known. -/
def takeAll (known : Known) (arguments : Arguments) (pending : Pending) :
    List String → Except UsageFault Arguments
  | [] => arguments.settle pending
  | "--" :: rest =>
    if rest.isEmpty then arguments.settle pending else .error .unknownArgument
  | argument :: rest => do
    let (arguments, pending) ← take known arguments pending argument
    takeAll known arguments pending rest

def listOptions : Known where
  named
    | "input" => some (.setting .input)
    | "help" => some (.switch .help)
    | _ => none
  lettered
    | 'i' => some (.setting .input)
    | 'h' => some (.switch .help)
    | _ => none

def runOptions : Known where
  named
    | "input" => some (.setting .input)
    | "predictor" => some (.setting .predictor)
    | "json" => some (.setting .json)
    | "config" => some (.setting .configuration)
    | "max-cycles" => some (.setting .maxCycles)
    | "rob" => some (.setting (.size .reorder))
    | "pipeline" => some (.setting (.size .pipeline))
    | "memory" => some (.setting (.size .memory))
    | "btb" => some (.setting (.size .target))
    | "direction" => some (.setting (.size .direction))
    | "ghr" => some (.setting (.size .history))
    | "obq" => some (.setting (.size .outstanding))
    | "interactive" => some (.switch .interactive)
    | "trace" => some (.switch .trace)
    | "verbose" => some (.switch .verbose)
    | "help" => some (.switch .help)
    | _ => none
  lettered
    | 'i' => some (.setting .input)
    | 'p' => some (.setting .predictor)
    | 'v' => some (.switch .verbose)
    | 'h' => some (.switch .help)
    | _ => none

end Arguments

/-- What the command line asks for. -/
inductive Request where
  | run (input : String) (arguments : Arguments)
  | list (input : String)
  deriving DecidableEq, Repr

namespace Request

/-- The files that a request reads. -/
def paths : Request → List String
  | run input arguments => input :: arguments.configuration.toList
  | list input => [input]

/-- Whether a request reads commands for a debugger. -/
def isInteractive : Request → Bool
  | run _ arguments => arguments.interactive
  | list _ => false

/-- The names of the commands, with the one that explains the others. -/
def commands : List String := ["run", "list", "help"]

/-- Reads the options of a command, which must name an input. -/
def withInput (known : Arguments.Known) (arguments : List String) :
    Except UsageFault (String × Arguments) := do
  let taken ← Arguments.takeAll known {} none arguments
  match taken.input with
  | some input => return (input, taken)
  | none => .error .missingArgument

/-- Explains the commands that are named. -/
def explain : List String → UsageFault
  | [] => .helpRequested
  | [name] => if name ∈ commands then .helpRequested else .unknownCommand
  | _ => .unknownCommand

/-- Reads an argument that stands where a command should. -/
def withoutCommand (argument : String) (rest : List String) : UsageFault :=
  match argument.toList with
  | ['-', '-'] =>
    match rest with
    | [] => .nothingRequested
    | name :: _ => if name ∈ commands then .unknownArgument else .unknownCommand
  | '-' :: '-' :: text =>
    match Arguments.splitValue text with
    | ("help", none) => .helpRequested
    | ("version", none) => .versionRequested
    | ("help", some _) | ("version", some _) => .unneededValue
    | _ => .unknownArgument
  | '-' :: 'h' :: _ => .helpRequested
  | '-' :: 'V' :: _ => .versionRequested
  | '-' :: _ :: _ => .unknownArgument
  | _ => .unknownCommand

/-- Reads the command line. -/
def read : List String → Except UsageFault Request
  | [] => .error .nothingRequested
  | "run" :: rest => do
    let (input, arguments) ← withInput Arguments.runOptions rest
    return run input arguments
  | "list" :: rest => do
    let (input, _) ← withInput Arguments.listOptions rest
    return list input
  | "help" :: rest => .error (explain rest)
  | argument :: rest => .error (withoutCommand argument rest)

end Request
end BranchPipeline
