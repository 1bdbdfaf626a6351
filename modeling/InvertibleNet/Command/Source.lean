/-
# Architecture sources

Where a command takes its architecture from: a preset by name, a document with
a configuration, or a checkpoint.
-/

import InvertibleNet.Storage.Checkpoint

namespace InvertibleNet

inductive Source where
  | preset (name : String)
  | configFile (path : String)
  | checkpoint (directory : String)
  deriving DecidableEq, Repr

/-- The configuration that a source names. -/
def Source.resolve : Source → Action NetworkConfig
  | .preset name => do
      let preset ← Action.compute (Preset.find name)
      return preset.config
  | .configFile path => do
      let text ← Action.attempting (.readConfig path)
        (Action.reading fun files => files.readText path)
      Checkpoint.parseConfig path text
  | .checkpoint directory => do (← Checkpoint.openExisting directory).loadConfig

end InvertibleNet
