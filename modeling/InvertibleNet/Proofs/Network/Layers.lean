/-
# The layers of a residual map

A residual map runs eight layers, with a normalisation and a rectifier in front of them
everywhere but in the first block. Convolutions and normalisations are built for a number of
channels, and each of these numbers is taken from the block: the half that it cuts off, the
width inside, or its output. Here the layers are a list, so that what each of them receives
can be followed through a run. Every layer finds the channels that it is built for, and what
leaves the last one has the shape of a rearranged half wherever there is such a thing.
-/

import InvertibleNet.Proofs.Network.Parameters

namespace InvertibleNet

universe u

/-- One layer of a residual map. -/
inductive Layer where
  | convolution (kernel : Kernel) (stride : Nat)
  | normalisation (norm : Norm)
  | rectifier
  | dropout

namespace Layer

/-- The channels that a layer is built for. The layers without weights take any number. -/
def builtFor? : Layer → Option Nat
  | convolution kernel _ => some kernel.inChannels
  | normalisation norm => some norm.channels
  | rectifier => none
  | dropout => none

/-- Whether a layer can receive so many channels. -/
def Accepts (layer : Layer) (channels : Nat) : Prop :=
  ∀ width, layer.builtFor? = some width → channels = width

/-- What a layer makes of a tensor. Dropout only acts while a network is trained. -/
def apply : Layer → Tensor Single → Tensor Single
  | convolution kernel stride, x => x.convolve kernel stride
  | normalisation norm, x => x.normalise norm
  | rectifier, x => x.rectify
  | dropout, x => x

/-- How many channels leave a layer. -/
def channelsBehind : Layer → Nat → Nat
  | convolution kernel _, _ => kernel.outChannels
  | _, channels => channels

theorem channels_apply (layer : Layer) (x : Tensor Single) :
    (layer.apply x).shape.channels = layer.channelsBehind x.shape.channels := by
  cases layer <;> rfl

/-- Run layers one after the other. -/
def run (layers : List Layer) (x : Tensor Single) : Tensor Single :=
  layers.foldl (fun state layer => layer.apply state) x

/-- Whether every layer can receive what the layers in front of it leave of so many channels. -/
def Fit : List Layer → Nat → Prop
  | [], _ => True
  | layer :: layers, channels => layer.Accepts channels ∧ Fit layers (layer.channelsBehind channels)

/-- A run of layers that fit gives each of them the channels that it is built for. -/
theorem Fit.accepts {before behind : List Layer} {layer : Layer} {x : Tensor Single}
    (fit : Fit (before ++ layer :: behind) x.shape.channels) :
    layer.Accepts (run before x).shape.channels := by
  induction before generalizing x with
  | nil => exact fit.1
  | cons first before ih =>
      obtain ⟨-, rest⟩ := fit
      -- What fits behind the first layer fits the tensor that this layer leaves.
      rw [← channels_apply] at rest
      exact ih rest

end Layer

namespace Kernel

/-- Whether a kernel leads from one number of channels to another. -/
structure Leads (kernel : Kernel) (inChannels outChannels : Nat) : Prop where
  inChannels : kernel.inChannels = inChannels
  outChannels : kernel.outChannels = outChannels

end Kernel

namespace Bottleneck

/-- Whether the layers of a residual map have the widths that the block asks for. Their
weights are free. -/
structure IsBuilt (bottleneck : Bottleneck) (spec : BlockSpec) (multiplier : Nat) : Prop where
  /-- Only the first block has nothing in front of its first convolution. -/
  prologue : if spec.isFirst then bottleneck.prologue = none else
    ∃ norm, bottleneck.prologue = some norm ∧ norm.channels = spec.halfChannels
  enter : bottleneck.enter.Leads spec.halfChannels (spec.bottleneckWidth multiplier)
  enterNorm : bottleneck.enterNorm.channels = spec.bottleneckWidth multiplier
  inner : bottleneck.inner.Leads (spec.bottleneckWidth multiplier)
    (spec.bottleneckWidth multiplier)
  innerNorm : bottleneck.innerNorm.channels = spec.bottleneckWidth multiplier
  leave : bottleneck.leave.Leads (spec.bottleneckWidth multiplier) spec.outChannels

/-- What is drawn for a block is built for it. -/
theorem isBuilt_draw {source : WeightSource Id} (lawful : source.Lawful) (spec : BlockSpec)
    (multiplier : Nat) : (draw source spec multiplier).run.IsBuilt spec multiplier := by
  obtain ⟨kernel, norm, -⟩ := lawful
  have leads (inChannels outChannels : Nat) :
      (source.kernel outChannels inChannels).run.Leads inChannels outChannels :=
    ⟨(kernel outChannels inChannels).2, (kernel outChannels inChannels).1⟩
  rw [run_draw]
  refine ⟨?_, leads _ _, norm _, leads _ _, norm _, leads _ _⟩
  split
  · rfl
  · exact ⟨_, rfl, norm _⟩

/-- The layers from the first convolution on. It alone has the stride of the block. -/
def body (bottleneck : Bottleneck) (stride : Nat) : List Layer :=
  [.convolution bottleneck.enter stride, .normalisation bottleneck.enterNorm, .rectifier,
    .convolution bottleneck.inner 1, .dropout, .normalisation bottleneck.innerNorm, .rectifier,
    .convolution bottleneck.leave 1]

/-- The layers of a residual map, from its input on. -/
def layers (bottleneck : Bottleneck) (stride : Nat) : List Layer :=
  match bottleneck.prologue with
  | some norm => .normalisation norm :: .rectifier :: bottleneck.body stride
  | none => bottleneck.body stride

/-- Applying a residual map is running its layers. -/
theorem run_layers (bottleneck : Bottleneck) (stride : Nat) (x : Tensor Single) :
    Layer.run (bottleneck.layers stride) x = bottleneck.apply stride x := by
  unfold layers apply
  cases bottleneck.prologue with
  | some norm => rfl
  | none => rfl

variable {bottleneck : Bottleneck} {spec : BlockSpec} {multiplier : Nat}

theorem IsBuilt.body_widths (built : bottleneck.IsBuilt spec multiplier) (stride : Nat) :
    (bottleneck.body stride).filterMap Layer.builtFor? =
      [spec.halfChannels, spec.bottleneckWidth multiplier, spec.bottleneckWidth multiplier,
        spec.bottleneckWidth multiplier, spec.bottleneckWidth multiplier] := by
  obtain ⟨-, enter, enterNorm, inner, innerNorm, leave⟩ := built
  simp [body, List.filterMap_cons, Layer.builtFor?, enter.inChannels, enterNorm,
    inner.inChannels, innerNorm, leave.inChannels]

/-- The widths that the layers are built for, from the input on. -/
theorem IsBuilt.widths (built : bottleneck.IsBuilt spec multiplier) (stride : Nat) :
    (bottleneck.layers stride).filterMap Layer.builtFor? =
      (if spec.isFirst then [] else [spec.halfChannels]) ++
        [spec.halfChannels, spec.bottleneckWidth multiplier, spec.bottleneckWidth multiplier,
          spec.bottleneckWidth multiplier, spec.bottleneckWidth multiplier] := by
  have prologue := built.prologue
  unfold layers
  split at prologue
  · next first =>
    rw [prologue, if_pos first]
    exact built.body_widths stride
  · next later =>
    obtain ⟨norm, found, channels⟩ := prologue
    rw [found, if_neg later, ← built.body_widths stride, ← channels]
    rfl

theorem IsBuilt.body_fit (built : bottleneck.IsBuilt spec multiplier) (stride : Nat) :
    Layer.Fit (bottleneck.body stride) spec.halfChannels := by
  obtain ⟨-, enter, enterNorm, inner, innerNorm, leave⟩ := built
  simp [body, Layer.Fit, Layer.Accepts, Layer.builtFor?, Layer.channelsBehind, enter.inChannels,
    enter.outChannels, enterNorm, inner.inChannels, inner.outChannels, innerNorm,
    leave.inChannels]

/-- The layers fit each other behind the half that the block feeds them. -/
theorem IsBuilt.fit (built : bottleneck.IsBuilt spec multiplier) (stride : Nat) :
    Layer.Fit (bottleneck.layers stride) spec.halfChannels := by
  have prologue := built.prologue
  unfold layers
  split at prologue
  · rw [prologue]
    exact built.body_fit stride
  · obtain ⟨norm, found, channels⟩ := prologue
    rw [found]
    refine ⟨?_, fun _ none => ?_, built.body_fit stride⟩
    · intro width width_eq
      cases width_eq
      exact channels.symm
    · cases none

end Bottleneck

/-- A block whose doubled output channels fit a word gives a rearranged half the shape that
three convolutions give it, where the block divides height and width. -/
theorem BlockSpec.Sound.gathered_eq {spec : BlockSpec} (sound : spec.Sound) {shape : Shape}
    (full : shape.IsFull) (half : shape.channels = spec.halfChannels)
    (height : spec.stride ∣ shape.height) (width : spec.stride ∣ shape.width) :
    (Psi.mk spec.stride).gathered shape = spec.residualShape shape := by
  obtain ⟨-, -, height_pos, width_pos⟩ := full
  simp only [Psi.gathered, residualShape, half, sound.area,
    convolvedExtent_of_dvd sound.stride_pos height_pos height,
    convolvedExtent_of_dvd sound.stride_pos width_pos width]

/-- Every layer of a residual map that is built for a valid block receives as many channels as
it is built for, and these are the half of the block, five widths inside and, behind the first
block, the half once more. The residual of a half has the output channels of the block and one
row and one column for every step of its stride. Where the stride divides height and width this
is the shape of any rearranged tensor of the shape of the half. -/
theorem Bottleneck.shaped_as_rearranged {spec : BlockSpec} {multiplier : Nat}
    (valid : spec.validate multiplier = .ok ()) (room : 2 * spec.outChannels < Count.limit)
    {bottleneck : Bottleneck} (built : bottleneck.IsBuilt spec multiplier) {x : Tensor Single}
    (full : x.shape.IsFull) (half : x.shape.channels = spec.halfChannels) :
    (∀ before layer behind, bottleneck.layers spec.stride = before ++ layer :: behind →
        layer.Accepts (Layer.run before x).shape.channels) ∧
      ((bottleneck.layers spec.stride).filterMap Layer.builtFor? =
        (if spec.isFirst then [] else [spec.halfChannels]) ++
          [spec.halfChannels, spec.bottleneckWidth multiplier, spec.bottleneckWidth multiplier,
            spec.bottleneckWidth multiplier, spec.bottleneckWidth multiplier]) ∧
      ∃ y, bottleneck.run spec.stride x = .ok y ∧
        y = Layer.run (bottleneck.layers spec.stride) x ∧
        y.shape = ⟨x.shape.batch, spec.outChannels, (x.shape.height - 1) / spec.stride + 1,
          (x.shape.width - 1) / spec.stride + 1⟩ ∧
        (spec.stride ∣ x.shape.height → spec.stride ∣ x.shape.width →
          ∀ {α : Type u} [Zero α] (other : Tensor α), other.shape = x.shape →
            ∃ moved, (Psi.mk spec.stride).forward other = .ok moved ∧
              moved.shape = y.shape) := by
  have sound := BlockSpec.sound_of_fault?_eq_none room (NetworkConfig.validate_eq_ok_iff.mp valid)
  have shaped : (bottleneck.apply spec.stride x).shape = spec.residualShape x.shape := by
    rw [shape_apply, built.leave.outChannels]
    rfl
  refine ⟨?_, built.widths spec.stride, bottleneck.apply spec.stride x, ?_,
    (run_layers ..).symm, shaped, ?_⟩
  · intro before layer behind parts
    have fit := built.fit spec.stride
    rw [parts, ← half] at fit
    exact fit.accepts
  · rw [Bottleneck.run, if_neg (not_not_intro (half.trans built.enter.inChannels.symm)),
      if_pos (Shape.hasPixels_iff.mpr full.2.2)]
  · intro height width α _ other same
    have divides : (Psi.mk spec.stride).Divides other.shape :=
      ⟨sound.stride_pos, same ▸ height, same ▸ width⟩
    refine ⟨_, Psi.forward_eq_gather (same ▸ full) divides, ?_⟩
    rw [Psi.shape_gather divides.1, same, shaped, sound.gathered_eq full half height width]

/-- A block that halves height and width turns a half of four channels into eight channels, as
many as rearranging it does. -/
theorem Bottleneck.shaped_as_rearranged_downsampling :
    let spec : BlockSpec := ⟨1, 4, 8, 2, false⟩
    let bottleneck := (draw WeightSource.fresh spec 3).run
    let half : Tensor Single := .ofFn ⟨2, 2, 4, 6⟩ fun _ _ row _ => .ofNat row
    ∃ y, bottleneck.run 2 half = .ok y ∧ y.shape = ⟨2, 8, 2, 3⟩ ∧
      ∃ moved, (Psi.mk 2).forward half = .ok moved ∧ moved.shape = y.shape := by
  intro spec bottleneck half
  have built := isBuilt_draw WeightSource.lawful_fresh spec 3
  have full : half.shape.IsFull := by decide
  obtain ⟨-, -, y, ran, -, shaped, moves⟩ :=
    Bottleneck.shaped_as_rearranged (by decide) (by decide) built full (by decide)
  refine ⟨y, ran, shaped.trans (by decide), ?_⟩
  exact moves (by decide) (by decide) half rfl

end InvertibleNet
