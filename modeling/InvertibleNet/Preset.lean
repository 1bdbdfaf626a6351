/-
# Presets

Named architectures. All but the last one have three stages of equal depth at
strides one, two and two, with four times as many channels at each stage.
-/

import InvertibleNet.Geometry

namespace InvertibleNet

/-- A named architecture. -/
structure Preset where
  name : String
  blocks : List Nat
  strides : List Nat
  channels : List Nat
  input : SampleShape
  initialBlock : Nat
  classes : Nat
  dropoutRate : Double
  multiplier : Nat
  deriving DecidableEq, Repr

namespace Preset

/-- The shape shared by the small presets. -/
def threeStage (name : String) (depth base : Nat) (input : SampleShape) (classes : Nat) :
    Preset where
  name := name
  blocks := [depth, depth, depth]
  strides := [1, 2, 2]
  channels := [base, base * 4, base * 16]
  input := input
  initialBlock := 0
  classes := classes
  dropoutRate := .ofRatio false 1 10
  multiplier := 4

/-- The four-stage architecture for large photographs. -/
def imagenet : Preset where
  name := "imagenet"
  blocks := [6, 16, 72, 6]
  strides := [2, 2, 2, 2]
  channels := [24, 96, 384, 1536]
  input := ⟨3, 224, 224⟩
  initialBlock := 2
  classes := 1000
  dropoutRate := .zero
  multiplier := 4

/-- All presets, in the order in which they are listed. -/
def all : List Preset := [
  threeStage "irevnet1" 1 16 ⟨3, 32, 32⟩ 10,
  threeStage "irevnet2" 2 16 ⟨3, 32, 32⟩ 10,
  threeStage "irevnet4" 4 16 ⟨3, 32, 32⟩ 10,
  threeStage "irevnet9" 9 16 ⟨3, 32, 32⟩ 10,
  threeStage "irevnet18" 18 16 ⟨3, 32, 32⟩ 10,
  threeStage "irevnet4-32" 4 32 ⟨32, 64, 64⟩ 10,
  threeStage "irevnet18-32" 18 32 ⟨32, 64, 64⟩ 10,
  threeStage "irevnet24-32" 24 32 ⟨32, 64, 64⟩ 10,
  threeStage "irevnet16x64" 4 16 ⟨16, 64, 64⟩ 100,
  threeStage "irevnet48x64" 2 48 ⟨48, 64, 64⟩ 100,
  threeStage "irevnet64x64" 6 64 ⟨64, 64, 64⟩ 100,
  threeStage "irevnet18-32-8" 18 8 ⟨8, 128, 128⟩ 10,
  threeStage "irevnet24-32-8" 24 8 ⟨8, 128, 128⟩ 10,
  threeStage "irevnet8x112" 18 8 ⟨8, 112, 112⟩ 10,
  threeStage "irevnet8x384" 18 8 ⟨8, 384, 384⟩ 10,
  threeStage "irevnet32x56" 2 32 ⟨32, 56, 56⟩ 10,
  threeStage "irevnet16x56" 2 16 ⟨16, 56, 56⟩ 10,
  threeStage "irevnet48x56" 2 48 ⟨48, 56, 56⟩ 10,
  threeStage "irevnet64x56" 2 64 ⟨64, 56, 56⟩ 10,
  threeStage "irevnet32x192" 4 32 ⟨32, 192, 192⟩ 10,
  threeStage "irevnet20x320" 4 20 ⟨20, 320, 320⟩ 35,
  threeStage "irevnet40x320" 4 40 ⟨40, 320, 320⟩ 35,
  imagenet]

def names : List String := all.map (·.name)

/-- Whether two names agree up to the case of the letters of ASCII. -/
def sameName (first second : String) : Bool :=
  first.toList.map Char.toLower == second.toList.map Char.toLower

/-- The preset of a name, in any mix of cases. -/
def find (name : String) : Except Fault Preset :=
  match all.find? fun preset => sameName preset.name name with
  | some preset => .ok preset
  | none => .error (.config (.unknownPreset name names))

end Preset

end InvertibleNet
