/-
# Weight files

The bytes in which the weights of a network are stored: a mark that no text
starts with, and then every array of the network in a fixed order, its length
in front of its values. All numbers are little-endian words of 32 bits.
-/

import InvertibleNet.Network.Basic

namespace InvertibleNet.WeightFile

/-- What every weight file starts with. -/
def mark : UInt32 := 0x314e52ff

/-! ## Writing -/

def pushWord (bytes : ByteArray) (word : UInt32) : ByteArray :=
  (((bytes.push word.toUInt8).push (word >>> 8).toUInt8).push (word >>> 16).toUInt8).push
    (word >>> 24).toUInt8

/-- A count, as two words. -/
def pushCount (bytes : ByteArray) (count : Nat) : ByteArray :=
  pushWord (pushWord bytes (count % 0x100000000).toUInt32) (count / 0x100000000).toUInt32

def pushValues (bytes : ByteArray) (values : Array Single) : ByteArray :=
  values.foldl (fun bytes value => pushWord bytes value.bits) (pushCount bytes values.size)

def pushNorm (bytes : ByteArray) (norm : Norm) : ByteArray :=
  [norm.gamma, norm.beta, norm.mean, norm.variance].foldl pushValues bytes

def pushKernel (bytes : ByteArray) (kernel : Kernel) : ByteArray :=
  pushValues (pushCount (pushCount bytes kernel.outChannels) kernel.inChannels) kernel.weights

def pushLinear (bytes : ByteArray) (linear : Linear) : ByteArray :=
  pushValues
    (pushValues (pushCount (pushCount bytes linear.features) linear.classes) linear.weights)
    linear.bias

/-- A residual map; in front of it stands whether it has a prologue. -/
def pushBottleneck (bytes : ByteArray) (bottleneck : Bottleneck) : ByteArray :=
  let bytes := match bottleneck.prologue with
    | none => pushCount bytes 0
    | some norm => pushNorm (pushCount bytes 1) norm
  let bytes := pushNorm (pushKernel bytes bottleneck.enter) bottleneck.enterNorm
  let bytes := pushNorm (pushKernel bytes bottleneck.inner) bottleneck.innerNorm
  pushKernel bytes bottleneck.leave

/-- The bytes of some weights. -/
def ofWeights (weights : Weights) : ByteArray :=
  let bytes := pushCount (pushWord .empty mark) weights.bottlenecks.length
  let bytes := weights.bottlenecks.foldl pushBottleneck bytes
  pushLinear (pushNorm bytes weights.norm) weights.linear

/-! ## Reading -/

/-- Reads from a place in some bytes; the state is that place. -/
abbrev Reader := StateT Nat (ReaderT ByteArray Option)

def word : Reader UInt32 := do
  let bytes ← read
  let place ← get
  if place + 4 ≤ bytes.size then
    set (place + 4)
    let byte (offset : Nat) : UInt32 := (bytes.data.getD (place + offset) 0).toUInt32
    return byte 0 ||| byte 1 <<< 8 ||| byte 2 <<< 16 ||| byte 3 <<< 24
  else failure

def count : Reader Nat := do
  let low ← word
  let high ← word
  return low.toNat + high.toNat * 0x100000000

/-- An array; its length has to fit into what is left of the bytes. -/
def values : Reader (Array Single) := do
  let length ← count
  if 4 * length ≤ (← read).size - (← get) then
    let mut values := Array.emptyWithCapacity length
    for _ in [0:length] do
      values := values.push ⟨← word⟩
    return values
  else failure

def norm : Reader Norm := do
  return { gamma := ← values, beta := ← values, mean := ← values, variance := ← values }

def kernel : Reader Kernel := do
  return { outChannels := ← count, inChannels := ← count, weights := ← values }

def linear : Reader Linear := do
  return { features := ← count, classes := ← count, weights := ← values, bias := ← values }

def bottleneck : Reader Bottleneck := do
  let prologue ← match ← count with
    | 0 => pure none
    | 1 => some <$> norm
    | _ => failure
  return {
    prologue := prologue
    enter := ← kernel
    enterNorm := ← norm
    inner := ← kernel
    innerNorm := ← norm
    leave := ← kernel }

def bottlenecks : Nat → Reader (List Bottleneck)
  | 0 => return []
  | count + 1 => do
      let first ← bottleneck
      return first :: (← bottlenecks count)

def weights : Reader Weights := do
  if (← word) ≠ mark then failure
  let length ← count
  if (← read).size < length then failure
  return { bottlenecks := ← bottlenecks length, norm := ← norm, linear := ← linear }

/-- The weights in some bytes, if nothing is missing and nothing is left over. -/
def toWeights? (bytes : ByteArray) : Option Weights := do
  let (weights, place) ← (weights.run 0).run bytes
  if place = bytes.size then return weights else failure

end InvertibleNet.WeightFile
