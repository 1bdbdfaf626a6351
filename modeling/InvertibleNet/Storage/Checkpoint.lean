/-
# Checkpoints

A checkpoint is a directory with two files: the configuration of a network, as
a document, and its weights. The configuration is written first. Loading builds
the network of the configuration anew and then puts the stored weights in place
of its own; only the number of blocks has to agree.
-/

import InvertibleNet.Layer.Fresh
import InvertibleNet.Network.Document
import InvertibleNet.Storage.Session

namespace InvertibleNet

/-- A network in a session: the plan is announced before any weight is drawn. -/
def NetworkConfig.construct (config : NetworkConfig) : Action Network := do
  let plan ← Action.compute config.plan
  Action.log .info .network plan.announcement
  Action.compute (config.checkBlocks plan)
  Action.compute (config.checkRoom plan)
  return Network.mk plan (Weights.draw WeightSource.fresh plan config.multiplier).run

/-- A directory that holds a checkpoint, by its path. -/
structure Checkpoint where
  directory : String
  deriving DecidableEq, Repr

namespace Checkpoint

def configPath (checkpoint : Checkpoint) : String :=
  joinPath checkpoint.directory "irevnet_config.json"

/-- The path of the weights as messages name it. -/
def modelPath (checkpoint : Checkpoint) : String := joinPath checkpoint.directory "model"

/-- The path of the weights in the file tree. -/
def weightsPath (checkpoint : Checkpoint) : String := joinPath checkpoint.directory "model.mpk.gz"

/-- A checkpoint to write into; its directory is created if it is missing. -/
def create (directory : String) : Action Checkpoint := do
  Action.attempting (.createCheckpoint directory) (Action.ensureDirectory directory)
  return ⟨directory⟩

/-- A checkpoint to read from; its directory has to exist. -/
def openExisting (directory : String) : Action Checkpoint := do
  if (← get).files.isDirectory directory then return ⟨directory⟩
  else throw (.refused (.noCheckpoint directory))

/-- Write the configuration. -/
def saveConfig (checkpoint : Checkpoint) (config : NetworkConfig) : Action Unit :=
  let text := (NetworkConfig.record.toValue config).pretty
  Action.attempting (.writeConfig checkpoint.configPath)
    (Action.changing fun files => files.write checkpoint.configPath (.text text))

/-- Write the weights. -/
def saveWeights (checkpoint : Checkpoint) (weights : Weights) : Action Unit := do
  match (← get).files.write checkpoint.weightsPath (.weights weights) with
  | .ok files => modify fun session => { session with files := files }
  | .error _ => throw (.during (.saveWeights checkpoint.modelPath) .unreadableWeights)

/-- Write a network: its configuration first, then its weights. -/
def save (checkpoint : Checkpoint) (network : Network) (config : NetworkConfig) :
    Action Unit := do
  checkpoint.saveConfig config
  checkpoint.saveWeights network.weights
  Action.log .info .checkpoint s!"Saved checkpoint to '{checkpoint.directory}'"

/-- The configuration in a text that was read from a path. -/
def parseConfig (path text : String) : Action NetworkConfig :=
  match NetworkConfig.record.ofText text with
  | .ok config => return config
  | .error cause => throw (.during (.parseConfig path) (.document cause))

/-- Read the configuration. -/
def loadConfig (checkpoint : Checkpoint) : Action NetworkConfig := do
  let text ← Action.attempting (.readCheckpointConfig checkpoint.configPath)
    (Action.reading fun files => files.readText checkpoint.configPath)
  parseConfig checkpoint.configPath text

/-- Read the weights. -/
def loadWeights (checkpoint : Checkpoint) : Action Weights := do
  match (← get).files.read checkpoint.weightsPath with
  | .ok (.weights weights) => return weights
  | _ => throw (.during (.loadWeights checkpoint.modelPath) .unreadableWeights)

/-- Read a network. -/
def loadNetwork (checkpoint : Checkpoint) : Action Network := do
  let config ← checkpoint.loadConfig
  let network ← config.construct
  let weights ← checkpoint.loadWeights
  Action.log .info .checkpoint s!"Loaded checkpoint from '{checkpoint.directory}'"
  if weights.bottlenecks.length = network.plan.specs.length then
    return { network with weights := weights }
  else throw (.fault (.breakdown .foreignWeights))

end Checkpoint

end InvertibleNet
