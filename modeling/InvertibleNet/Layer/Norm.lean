/-
# Normalisation

Batch normalisation with the statistics it has stored, and the rectifier that
follows it. Both act on every entry alone, so neither changes a shape or mixes
samples.
-/

import InvertibleNet.Binary.Single
import InvertibleNet.Tensor.Basic

namespace InvertibleNet

/-- The four values that a normalisation keeps for each channel. -/
structure Norm where
  gamma : Array Single
  beta : Array Single
  mean : Array Single
  variance : Array Single
  deriving DecidableEq, Repr

namespace Norm

/-- What is added to a variance before its root is taken. -/
def epsilon : Single := .ofRatio false 1 100000

def channels (norm : Norm) : Nat := norm.gamma.size

/-- All values that the normalisation keeps. -/
def parameterCount (norm : Norm) : Nat :=
  norm.gamma.size + norm.beta.size + norm.mean.size + norm.variance.size

/-- One normalised value; every step rounds. -/
def value (norm : Norm) (channel : Nat) (x : Single) : Single :=
  (x - norm.mean.getD channel 0) / (norm.variance.getD channel 0 + epsilon).sqrt *
    norm.gamma.getD channel 0 + norm.beta.getD channel 0

end Norm

namespace Tensor

/-- Normalise every channel. -/
def normalise (norm : Norm) (x : Tensor Single) : Tensor Single :=
  ofFn x.shape fun sample channel row column =>
    norm.value channel (x.entry sample channel row column)

/-- Replace negative values by zero. -/
def rectify (x : Tensor Single) : Tensor Single :=
  x.map fun value => if value.less 0 then 0 else value

end Tensor

end InvertibleNet
