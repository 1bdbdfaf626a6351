/-
# Random batches

A batch of values drawn evenly from the half-open interval from minus one to
one. A value is made from the top 23 bits of one word of the stream, which
single precision represents exactly, so no rounding is involved.
-/

import InvertibleNet.Random.Keystream
import InvertibleNet.Tensor.Channels
import InvertibleNet.Binary.Single

namespace InvertibleNet

/-- The number in the interval that a word stands for: the top 23 bits as a
fraction, doubled and moved down by one. -/
def uniformValue (word : UInt32) : Single :=
  let step := (word >>> 9).toNat
  let half := 0x400000
  if step < half then .ofRatio true (half - step) half
  else .ofRatio false (step - half) half

/-- The batch of a seed, row by row. The values are drawn as one array, which is
then seen with the four axes of the batch. -/
def randomBatch (shape : Shape) (seed : UInt64) : Except Fault (Tensor Single) :=
  if !shape.isAddressable then .error (.breakdown .overflow)
  else if (RowMajor.reshaped? [shape.size] shape.toList).isNone then
    .error (.breakdown .emptyAxis)
  else
    let words := Keystream.words seed shape.size
    .ok {
      shape := shape
      values := Array.ofFn (n := shape.size) fun place => uniformValue (words.getD place 0)
      size_eq := by simp }

end InvertibleNet
