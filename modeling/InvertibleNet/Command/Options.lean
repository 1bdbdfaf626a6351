/-
# Options

The options that the commands take, and what each of them accepts as its
value. An option is written with two dashes in front of its name; its value
stands behind an equals sign or in the argument that follows.
-/

import InvertibleNet.Command.Check
import InvertibleNet.Decimal.Reading

namespace InvertibleNet

/-- Why a command line leads to no run: it is refused, or it asks for a text
about the program. -/
inductive ArgumentFault where
  | noCommand
  | unknownCommand
  | unknownArgument
  | missingArgument
  | conflict
  | invalidValue
  | malformedNumber
  | surplusValue
  | helpRequested
  | versionRequested
  deriving DecidableEq, Repr

def ArgumentFault.text : ArgumentFault → String
  | .noCommand => "a command is missing"
  | .unknownCommand => "unrecognized command"
  | .unknownArgument => "unexpected argument"
  | .missingArgument => "a required argument is missing"
  | .conflict => "arguments that cannot be used together"
  | .invalidValue => "an invalid value or none at all"
  | .malformedNumber => "a number that cannot be read"
  | .surplusValue => "a value for an option that takes none"
  | .helpRequested => "help requested"
  | .versionRequested => "version requested"

/-- What evaluates the tensors of a command. -/
inductive Backend where
  | processor
  | graphics
  deriving DecidableEq, Repr

/-- The name that selects a backend. -/
def Backend.name : Backend → String
  | .processor => "ndarray"
  | .graphics => "wgpu"

/-- The name of a backend in a log line. -/
def Backend.title : Backend → String
  | .processor => "Ndarray"
  | .graphics => "Wgpu"

/-- The backend of a name, in exactly its spelling. -/
def Backend.ofName? (name : String) : Option Backend :=
  [processor, graphics].find? fun backend => backend.name == name

/-- The options of all commands. -/
inductive Flag where
  | preset
  | config
  | checkpointDir
  | batchSize
  | seed
  | tolerance
  | reportDir
  | backend
  deriving DecidableEq, Repr

namespace Flag

def name : Flag → String
  | preset => "preset"
  | config => "config"
  | checkpointDir => "checkpoint-dir"
  | batchSize => "batch-size"
  | seed => "seed"
  | tolerance => "tolerance"
  | reportDir => "report-dir"
  | backend => "backend"

/-- What is wrong with a value of the option, if anything is. A path may not be
empty; the name of a preset may. -/
def valueFault? (flag : Flag) (value : String) : Option ArgumentFault :=
  match flag with
  | preset => none
  | config | checkpointDir | reportDir => if value.isEmpty then some .invalidValue else none
  | batchSize | seed => if (Count.ofText? value).isSome then none else some .malformedNumber
  | tolerance => if (Single.ofText? value).isSome then none else some .malformedNumber
  | backend => if (Backend.ofName? value).isSome then none else some .invalidValue

end Flag

/-- The options that were given, in their order, each with its value. -/
abbrev Settings := List (Flag × String)

namespace Settings

def value? (settings : Settings) (flag : Flag) : Option String := settings.lookup flag

def has (settings : Settings) (flag : Flag) : Bool := (settings.value? flag).isSome

/-- Add an option. Its value is there or missing; what is wrong with it counts
only if the option is not given twice. -/
def add (settings : Settings) (flag : Flag) (value? : Option String) :
    Except ArgumentFault Settings :=
  match value? with
  | none => .error .invalidValue
  | some value =>
      if settings.has flag then .error .conflict
      else
        match flag.valueFault? value with
        | some fault => .error fault
        | none => .ok (settings ++ [(flag, value)])

end Settings

end InvertibleNet
