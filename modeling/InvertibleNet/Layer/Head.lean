/-
# The classifier

The head turns features into one score for each class: normalise, rectify, take
the mean of every channel, apply a linear map. It is not part of what a network
inverts.
-/

import InvertibleNet.Layer.Bottleneck

namespace InvertibleNet

/-- One score for every sample and class, sample by sample. -/
structure Logits where
  batch : Nat
  classes : Nat
  values : Array Single
  deriving DecidableEq, Repr

def Linear.parameterCount (linear : Linear) : Nat := linear.weights.size + linear.bias.size

namespace Tensor

/-- The mean of one channel of one sample. -/
def channelMean (x : Tensor Single) (sample channel : Nat) : Single :=
  let area := x.shape.height * x.shape.width
  let sum := (List.range area).foldl (fun sum place =>
    sum + x.entry sample channel (place / x.shape.width) (place % x.shape.width)) 0
  sum / .ofNat area

/-- The scores of all samples. -/
def classify (norm : Norm) (linear : Linear) (features : Tensor Single) : Logits :=
  let active := (features.normalise norm).rectify
  let means : Array Single := Array.ofFn
    (n := features.shape.batch * features.shape.channels) fun place =>
      active.channelMean (place / features.shape.channels) (place % features.shape.channels)
  { batch := features.shape.batch
    classes := linear.classes
    values := Array.ofFn (n := features.shape.batch * linear.classes) fun place =>
      let sample := place / linear.classes
      let target := place % linear.classes
      let sum : Single := (List.range linear.features).foldl (fun sum channel =>
        sum + means.getD (sample * features.shape.channels + channel) 0 *
          linear.weights.getD (channel * linear.classes + target) 0) 0
      sum + linear.bias.getD target 0 }

end Tensor

end InvertibleNet
