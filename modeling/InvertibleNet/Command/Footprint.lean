/-
# The paths of a command

A command touches only a few files, and its words name all of them. Whoever
runs it on real files needs no more than these.
-/

import InvertibleNet.Command.Arguments

namespace InvertibleNet

/-- The directory of a checkpoint and the files in it. -/
def Checkpoint.paths (checkpoint : Checkpoint) : List String :=
  [checkpoint.directory, checkpoint.configPath, checkpoint.weightsPath]

def Source.paths : Source → List String
  | .preset _ => []
  | .configFile path => [path]
  | .checkpoint directory => (Checkpoint.mk directory).paths

/-- The directory of a report log and the files that a report of a seed goes to. -/
def ReportLog.paths (log : ReportLog) (seed : Nat) : List String :=
  [log.directory, log.tablePath, log.documentPath seed]

/-- The paths that a command reads or writes, each directory in front of the
files in it. -/
def Command.paths : Command → List String
  | .presets => []
  | .summary source => source.paths
  | .init source directory _ => source.paths ++ (Checkpoint.mk directory).paths
  | .check request _ =>
      request.source.paths ++
        match request.reportDirectory with
        | none => []
        | some directory => (ReportLog.mk directory).paths request.seed

/-- A path and everything above it, the topmost first. -/
def pathAndAbove (path : String) : List String :=
  let names := pathParts path
  ((List.range names.length).map fun count => "/".intercalate (names.take (count + 1))).filter
    (!·.isEmpty)

end InvertibleNet
