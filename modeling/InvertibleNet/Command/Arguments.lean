/-
# Arguments

From the arguments of the program to a command. An option without an attached
value stays open until the next option or the end decides about it, so an
argument that fits nowhere is noticed before a value that is missing or wrong
in front of it. Which options belong together is checked when all of them have
been read: first the ones that exclude each other, then the ones that are
missing.
-/

import InvertibleNet.Command.Options

namespace InvertibleNet

/-- What the program can be asked to do. -/
inductive Command where
  | presets
  | summary (source : Source)
  | init (source : Source) (directory : String) (backend : Backend)
  | check (request : CheckRequest) (backend : Backend)
  deriving DecidableEq, Repr

/-- An argument by its form. -/
inductive Argument where
  /-- Two dashes alone: no options behind this place. -/
  | terminator
  | long (name : String) (attached : Option String)
  /-- One dash and some letters, of which only the first one matters. -/
  | short (letter : Char)
  | plain (text : String)
  deriving DecidableEq, Repr

namespace Argument

/-- A name and what is attached to it with the first equals sign. -/
def ofLong (text : List Char) : Argument :=
  let name := String.ofList (text.takeWhile (· ≠ '='))
  match text.dropWhile (· ≠ '=') with
  | [] => .long name none
  | _ :: value => .long name (some (String.ofList value))

/-- The form of an argument. A single dash alone is plain. -/
def ofText (text : String) : Argument :=
  match text.toList with
  | ['-', '-'] => .terminator
  | '-' :: '-' :: rest => ofLong rest
  | '-' :: letter :: _ => .short letter
  | _ => .plain text

end Argument

/-- An option whose value is not attached: the value is still to come, or it is
there and the option not yet settled. -/
structure OpenOption where
  flag : Flag
  value? : Option String
  deriving DecidableEq, Repr

/-- Add the open option, if there is one. -/
def Settings.settle (settings : Settings) : Option OpenOption → Except ArgumentFault Settings
  | none => .ok settings
  | some pending => settings.add pending.flag pending.value?

/-- Read the arguments of a command that takes some options and nothing else. -/
def readSettings (flags : List Flag) :
    Settings → Option OpenOption → List String → Except ArgumentFault Settings
  | settings, pending, [] => settings.settle pending
  | settings, pending, argument :: rest =>
      match Argument.ofText argument with
      | .terminator => if rest.isEmpty then settings.settle pending else .error .unknownArgument
      | .long name attached =>
          match flags.find? fun flag => flag.name == name with
          | some flag => do
              let settled ← settings.settle pending
              match attached with
              | none => readSettings flags settled (some ⟨flag, none⟩) rest
              | some value => readSettings flags (← settled.add flag (some value)) none rest
          | none =>
              if name ≠ "help" then .error .unknownArgument
              else if attached.isSome then .error .surplusValue
              else do
                let _ ← settings.settle pending
                throw .helpRequested
      | .short letter =>
          if letter = 'h' then do
            let _ ← settings.settle pending
            throw .helpRequested
          else .error .unknownArgument
      | .plain text =>
          match pending with
          | some ⟨flag, none⟩ => readSettings flags settings (some ⟨flag, some text⟩) rest
          | _ => .error .unknownArgument

/-- What the settings of a command are worth, with a default for what is not
given. The defaults are only used for options that were not given, because
every given value has been accepted before. -/
def Settings.backend (settings : Settings) : Backend :=
  ((settings.value? .backend).bind Backend.ofName?).getD .processor

/-- Which options belong together. -/
inductive Rule where
  /-- One of some options has to be there, and no other one with it. -/
  | exactlyOne (flags : List Flag)
  /-- Two options exclude each other. -/
  | excludes (flag other : Flag)
  /-- One option has to be there where the other one is not. -/
  | requiredUnless (flag other : Flag)
  deriving DecidableEq, Repr

/-- What is wrong with some settings under a rule, if anything is. -/
def Rule.fault? (settings : Settings) : Rule → Option ArgumentFault
  | exactlyOne flags =>
      match flags.countP settings.has with
      | 0 => some .missingArgument
      | 1 => none
      | _ => some .conflict
  | excludes flag other =>
      if settings.has flag && settings.has other then some .conflict else none
  | requiredUnless flag other =>
      if settings.has flag || settings.has other then none else some .missingArgument

/-- Check some rules, the first one first. -/
def Settings.check (settings : Settings) (rules : List Rule) : Except ArgumentFault Unit :=
  match rules.findSome? (Rule.fault? settings) with
  | some fault => .error fault
  | none => .ok ()

/-- The source that some options name, by the first of them that is there. Without any it is the
preset of no name; the rules of the commands keep it from coming to that. -/
def Source.ofOptions (preset config checkpoint : Option String) : Source :=
  match preset, config, checkpoint with
  | some name, _, _ => .preset name
  | none, some path, _ => .configFile path
  | none, none, some directory => .checkpoint directory
  | none, none, none => .preset ""

/-- The source that the settings of a command name. -/
def Settings.source (settings : Settings) : Source :=
  Source.ofOptions (settings.value? .preset) (settings.value? .config)
    (settings.value? .checkpointDir)

/-- The source of a new checkpoint. It is never a checkpoint itself: here that option only says
where to write. -/
def Settings.newSource (settings : Settings) : Source :=
  Source.ofOptions (settings.value? .preset) (settings.value? .config) none

namespace Command

/-- The options that name an architecture. -/
def sourceFlags : List Flag := [.preset, .config, .checkpointDir]

def ofSummaryArguments (arguments : List String) : Except ArgumentFault Command := do
  let settings ← readSettings sourceFlags [] none arguments
  settings.check [.exactlyOne sourceFlags]
  return .summary settings.source

/-- The options of `init`. -/
def initFlags : List Flag := [.preset, .config, .checkpointDir, .backend]

def ofInitArguments (arguments : List String) : Except ArgumentFault Command := do
  let settings ← readSettings initFlags [] none arguments
  settings.check [.excludes .preset .config, .requiredUnless .preset .config]
  return .init settings.newSource ((settings.value? .checkpointDir).getD "checkpoints")
    settings.backend

/-- The options of `check`. -/
def checkFlags : List Flag := sourceFlags ++ [.batchSize, .seed, .tolerance, .reportDir, .backend]

def ofCheckArguments (arguments : List String) : Except ArgumentFault Command := do
  let settings ← readSettings checkFlags [] none arguments
  settings.check [.exactlyOne sourceFlags]
  let request : CheckRequest := {
    source := settings.source
    batchSize := ((settings.value? .batchSize).bind Count.ofText?).getD 4
    seed := ((settings.value? .seed).bind Count.ofText?).getD 42
    tolerance := ((settings.value? .tolerance).bind Single.ofText?).getD (.ofRatio false 1 10000)
    reportDirectory := settings.value? .reportDir }
  return .check request settings.backend

def ofPresetsArguments (arguments : List String) : Except ArgumentFault Command := do
  let _ ← readSettings [] [] none arguments
  return .presets

/-- The names of the commands. -/
def names : List String := ["presets", "summary", "init", "check", "help"]

/-- Help on a command, given by the names that lead to it. No command has
commands of its own. -/
def ofHelpArguments : List String → ArgumentFault
  | [] => .helpRequested
  | [name] => if names.contains name then .helpRequested else .unknownCommand
  | _ => .unknownCommand

/-- What the program is asked to do. Behind a terminator a command is no longer
a command. -/
def ofArguments : List String → Except ArgumentFault Command
  | [] => .error .noCommand
  | argument :: rest =>
      match Argument.ofText argument with
      | .terminator =>
          match rest with
          | [] => .error .noCommand
          | name :: _ => .error (if names.contains name then .unknownArgument else .unknownCommand)
      | .long name attached =>
          if name = "help" ∨ name = "version" then
            if attached.isSome then .error .surplusValue
            else .error (if name = "help" then .helpRequested else .versionRequested)
          else .error .unknownArgument
      | .short letter =>
          if letter = 'h' then .error .helpRequested
          else if letter = 'V' then .error .versionRequested
          else .error .unknownArgument
      | .plain name =>
          match name with
          | "presets" => ofPresetsArguments rest
          | "summary" => ofSummaryArguments rest
          | "init" => ofInitArguments rest
          | "check" => ofCheckArguments rest
          | "help" => .error (ofHelpArguments rest)
          | _ => .error .unknownCommand

end Command

end InvertibleNet
