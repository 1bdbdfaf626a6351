/-
# Networks

A network is a plan and the weights for it. Its invertible branch is the stack
of coupling blocks whose residual maps are the bottlenecks; the classifier
reads the features of that branch.
-/

import InvertibleNet.Coupling.Branch
import InvertibleNet.Layer.Head
import InvertibleNet.Network.Config

namespace InvertibleNet

/-- One coupling block with its weights. -/
structure Block where
  spec : BlockSpec
  bottleneck : Bottleneck
  deriving DecidableEq, Repr

namespace Block

/-- Check a block: the channel arithmetic first, then the dropout rate. -/
def check (spec : BlockSpec) (dropoutRate : Double) (multiplier : Nat) : Except Fault Unit := do
  spec.validate multiplier
  if Double.zero.atMost dropoutRate && dropoutRate.less .one then return ()
  else throw (.config (.block spec.index (.dropoutRate dropoutRate)))

/-- Draw a checked block. -/
def draw {m : Type → Type} [Monad m] (source : WeightSource m) (spec : BlockSpec)
    (multiplier : Nat) : m Block :=
  return ⟨spec, ← Bottleneck.draw source spec multiplier⟩

/-- The map that the block computes. -/
def coupling (block : Block) : Coupling Single :=
  ⟨block.spec, block.bottleneck.apply block.spec.stride⟩

end Block

/-- A single block outside a network. -/
structure BlockConfig where
  inChannels : Nat
  outChannels : Nat
  stride : Nat
  isFirst : Bool
  dropoutRate : Double
  multiplier : Nat
  deriving DecidableEq, Repr

namespace BlockConfig

def spec (config : BlockConfig) : BlockSpec where
  index := 0
  inChannels := config.inChannels
  outChannels := config.outChannels
  stride := config.stride
  isFirst := config.isFirst

/-- Build the block, or say why it cannot be built. -/
def build {m : Type → Type} [Monad m] (config : BlockConfig) (source : WeightSource m) :
    Except Fault (m Block) := do
  Block.check config.spec config.dropoutRate config.multiplier
  return Block.draw source config.spec config.multiplier

/-- Break off if there is no room for the weights of the block. -/
def checkRoom (config : BlockConfig) : Except Fault Unit :=
  if Bottleneck.canExist config.spec config.multiplier then .ok ()
  else .error (.breakdown .overflow)

end BlockConfig

/-- Everything about a network that is learned. -/
structure Weights where
  bottlenecks : List Bottleneck
  norm : Norm
  linear : Linear
  deriving DecidableEq, Repr

namespace Weights

/-- Draw the weights for a plan. -/
def draw {m : Type → Type} [Monad m] (source : WeightSource m) (plan : Plan)
    (multiplier : Nat) : m Weights := do
  let bottlenecks ← plan.specs.mapM fun spec => Bottleneck.draw source spec multiplier
  let norm ← source.norm plan.outChannels
  let linear ← source.linear plan.outChannels plan.classes
  return { bottlenecks, norm, linear }

end Weights

/-- A network that can be run. -/
structure Network where
  plan : Plan
  weights : Weights
  deriving DecidableEq, Repr

/-- Check the blocks of a plan, now that nothing else is left to check. -/
def NetworkConfig.checkBlocks (config : NetworkConfig) (plan : Plan) : Except Fault Unit :=
  plan.specs.forM fun spec => Block.check spec config.dropoutRate config.multiplier

/-- Break off if there is no room for the weights of a plan. -/
def NetworkConfig.checkRoom (config : NetworkConfig) (plan : Plan) : Except Fault Unit :=
  if (plan.specs.all fun spec => Bottleneck.canExist spec config.multiplier) &&
      (Shape.mk 1 1 plan.outChannels plan.classes).isAddressable then .ok ()
  else .error (.breakdown .overflow)

/-- Build the network of a configuration, or say why it cannot be built. -/
def NetworkConfig.build {m : Type → Type} [Monad m] (config : NetworkConfig)
    (source : WeightSource m) : Except Fault (m Network) := do
  let plan ← config.plan
  config.checkBlocks plan
  return Network.mk plan <$> Weights.draw source plan config.multiplier

namespace Network

def blocks (network : Network) : List Block :=
  List.zipWith Block.mk network.plan.specs network.weights.bottlenecks

/-- Whether the network can be run. Drawn weights always fit their plan; weights
that were stored for another plan may not. A residual map that cannot take its
half breaks a run off; one that only gives a wrong width is left to its block,
which refuses it before any later block is reached. -/
def isRunnable (network : Network) : Bool :=
  match network.blocks.find? fun block => !block.bottleneck.fits block.spec with
  | none => true
  | some block => block.bottleneck.accepts block.spec

/-- The invertible branch of the network. -/
def branch (network : Network) : Branch Single where
  input := network.plan.geometry.input
  initialBlock := network.plan.geometry.initialBlock
  inChannels := network.plan.inChannels
  blocks := network.blocks.map (·.coupling)

/-- The scores of features whose spatial size is that of the pooling window. There
are none for an empty batch. -/
def head (network : Network) (features : Tensor Single) : Except Fault Logits :=
  let (height, width) := network.plan.pooled
  if features.shape.height = height ∧ features.shape.width = width then
    if features.shape.batch = 0 then .error (.breakdown .emptyAxis)
    else .ok (features.classify network.weights.norm network.weights.linear)
  else .error (.shape (.pool height width features.shape.height features.shape.width))

/-- Scores and features of an input. -/
def forward (network : Network) (x : Tensor Single) : Except Fault (Logits × Tensor Single) := do
  let features ← network.branch.forward x
  return (← network.head features, features)

/-- All stored values of the network. -/
def parameterCount (network : Network) : Nat :=
  Count.total (network.weights.bottlenecks.map (·.parameterCount)) +
    network.weights.norm.parameterCount + network.weights.linear.parameterCount

end Network

end InvertibleNet
