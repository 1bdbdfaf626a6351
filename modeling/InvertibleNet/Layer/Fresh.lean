/-
# Fresh weights

The weights of a network that has not been trained. Every kernel hands on one
input channel to each output channel, at a quarter of its size, so a residual
map starts small and without losing anything; normalisations change nothing but
the scale of their epsilon, and the classifier starts at zero.
-/

import InvertibleNet.Layer.Bottleneck

namespace InvertibleNet

/-- The weight at the centre of a fresh kernel. -/
def freshWeight : Single := .ofRatio false 1 4

/-- A fresh kernel: output channel `o` reads input channel `o` modulo the number
of input channels. -/
def Kernel.fresh (outChannels inChannels : Nat) : Kernel where
  outChannels := outChannels
  inChannels := inChannels
  weights :=
    let blank := Array.replicate (outChannels * inChannels * 9) Single.zero
    outChannels.fold (fun outChannel _ weights =>
      weights.setIfInBounds
        ((outChannel * inChannels + outChannel % inChannels) * 9 + 4) freshWeight) blank

/-- A fresh normalisation. -/
def Norm.fresh (channels : Nat) : Norm where
  gamma := Array.replicate channels .one
  beta := Array.replicate channels .zero
  mean := Array.replicate channels .zero
  variance := Array.replicate channels .one

/-- A fresh classifier. -/
def Linear.fresh (features classes : Nat) : Linear where
  features := features
  classes := classes
  weights := Array.replicate (features * classes) .zero
  bias := Array.replicate classes .zero

/-- Fresh weights for every part of a network. -/
def WeightSource.fresh : WeightSource Id where
  kernel := Kernel.fresh
  norm := Norm.fresh
  linear := Linear.fresh

end InvertibleNet
