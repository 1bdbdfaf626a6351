/-
# Sessions

A command works on a session: the files it may touch, the lines it logs and
the text it prints. It either finishes or fails, and what it has done to the
session up to that point stays done.

A failure carries what was being attempted in front of its cause.
-/

import InvertibleNet.Json.Fault
import InvertibleNet.Storage.FileTree

namespace InvertibleNet

/-- What was being attempted when a failure arose. -/
inductive Attempt where
  | createCheckpoint (directory : String)
  | saveWeights (path : String)
  | writeConfig (path : String)
  | readCheckpointConfig (path : String)
  | readConfig (path : String)
  | parseConfig (path : String)
  | loadWeights (path : String)
  | createReports (directory : String)
  | openTable (path : String)
  | writeReport (path : String)
  deriving DecidableEq, Repr

/-- What a command refuses to do. -/
inductive Refusal where
  | noCheckpoint (directory : String)
  | emptyBatch
  | checkpointGiven
  | outsideTolerance
  deriving DecidableEq, Repr

/-- Why a command fails. -/
inductive Failure where
  | fault (cause : Fault)
  | document (cause : Json.Fault)
  | file (cause : FileFault)
  | unreadableWeights
  | refused (cause : Refusal)
  | during (attempt : Attempt) (cause : Failure)
  deriving DecidableEq, Repr

def Attempt.text : Attempt → String
  | .createCheckpoint directory => s!"Cannot create checkpoint dir '{directory}'"
  | .saveWeights path => s!"Failed to save checkpoint to '{path}'"
  | .writeConfig path => s!"Cannot write config to '{path}'"
  | .readCheckpointConfig path =>
      s!"Cannot read config from '{path}'. Have you run 'init' first?"
  | .readConfig path => s!"Cannot read config '{path}'"
  | .parseConfig path => s!"Malformed config in '{path}'"
  | .loadWeights path => s!"Cannot load checkpoint '{path}'"
  | .createReports directory => s!"Cannot create report dir '{directory}'"
  | .openTable path => s!"Cannot open '{path}'"
  | .writeReport path => s!"Cannot write '{path}'"

def Refusal.text : Refusal → String
  | .noCheckpoint directory =>
      s!"Checkpoint dir '{directory}' does not exist. Have you run 'init' first?"
  | .emptyBatch => "batch size must be at least 1"
  | .checkpointGiven => "init needs a preset or a config file, not an existing checkpoint"
  | .outsideTolerance => "network does not invert within tolerance"

namespace Failure

/-- The text of a failure, the outermost attempt first. -/
def message : Failure → String
  | .fault cause => cause.message
  | .document cause => cause.message
  | .file cause => cause.text
  | .unreadableWeights => "<recorder>"
  | .refused cause => cause.text
  | .during attempt cause => s!"{attempt.text}: {cause.message}"

/-- The cause behind all attempts. -/
def root : Failure → Failure
  | .during _ cause => cause.root
  | cause => cause

end Failure

/-- How much a logged line matters. -/
inductive Level where
  | info
  | warning
  deriving DecidableEq, Repr

/-- The part of the library that a logged line comes from. -/
inductive Origin where
  | network
  | probe
  | checkpoint
  | summary
  | init
  | check
  | command
  deriving DecidableEq, Repr

structure LogLine where
  level : Level
  origin : Origin
  message : String
  deriving DecidableEq, Repr

def Level.text : Level → String
  | .info => "INFO"
  | .warning => "WARN"

def Origin.text : Origin → String
  | .network => "irevnet::ml::network"
  | .probe => "irevnet::ml::probe"
  | .checkpoint => "irevnet::infra::checkpoint"
  | .summary => "irevnet::application::summary_use_case"
  | .init => "irevnet::application::init_use_case"
  | .check => "irevnet::application::check_use_case"
  | .command => "irevnet::cli"

def LogLine.text (line : LogLine) : String :=
  s!"{line.level.text} {line.origin.text}: {line.message}"

/-- What a command works on. -/
structure Session where
  files : FileTree
  log : List LogLine
  output : String
  deriving Repr

namespace Session

/-- A session on some files, with nothing logged or printed. -/
def start (files : FileTree) : Session := ⟨files, [], ""⟩

end Session

/-- What a command does. -/
abbrev Action (α : Type) := ExceptT Failure (StateM Session) α

namespace Action

/-- Log a line. -/
def log (level : Level) (origin : Origin) (message : String) : Action Unit :=
  modify fun session => { session with log := session.log ++ [⟨level, origin, message⟩] }

/-- Print a line. -/
def printLine (line : String) : Action Unit :=
  modify fun session => { session with output := session.output ++ line ++ "\n" }

/-- Fail with what was being attempted. -/
def attempting {α : Type} (attempt : Attempt) (action : Action α) : Action α :=
  tryCatch action fun cause => throw (.during attempt cause)

/-- A pure result of the arithmetic part. -/
def compute {α : Type} (result : Except Fault α) : Action α :=
  match result with
  | .ok value => pure value
  | .error cause => throw (.fault cause)

/-- Read from the files. -/
def reading {α : Type} (read : FileTree → Except FileFault α) : Action α := do
  match read (← get).files with
  | .ok value => pure value
  | .error cause => throw (.file cause)

/-- Change the files. -/
def changing (change : FileTree → Except FileFault FileTree) : Action Unit := do
  let files ← reading change
  modify fun session => { session with files := files }

/-- Create a directory and everything missing on the way to it. What has been
created stays if the directory itself cannot be. -/
def ensureDirectory (path : String) : Action Unit := do
  let (files, fault?) := (← get).files.ensureDirectory path
  modify fun session => { session with files := files }
  if let some cause := fault? then throw (.file cause)

end Action

end InvertibleNet
