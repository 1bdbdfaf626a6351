/-
# Weights of a plan

Weights belong to a plan if their layers have the widths that the plan asks for;
what values they hold is of no account. A network of a plan and such weights has
a branch of the plan, because three convolutions and the layers between them make
of a half what its rearrangement is. Whatever a lawful source draws belongs to
the plan it was drawn for.
-/

import InvertibleNet.Layer.Fresh
import InvertibleNet.Network.Basic
import InvertibleNet.Proofs.Network.Branch

namespace InvertibleNet

/-- Whether weights have the widths of a plan. -/
structure Weights.Fits (weights : Weights) (plan : Plan) : Prop where
  bottlenecks : List.Forall₂ (fun (bottleneck : Bottleneck) (spec : BlockSpec) =>
    bottleneck.fits spec = true) weights.bottlenecks plan.specs
  norm : weights.norm.channels = plan.outChannels
  features : weights.linear.features = plan.outChannels
  classes : weights.linear.classes = plan.classes

/-! ## Residual maps -/

/-- A convolution of stride one keeps an extent. -/
theorem convolvedExtent_one (stride extent : Nat) :
    convolvedExtent 1 (convolvedExtent stride extent) = convolvedExtent stride extent := by
  unfold convolvedExtent
  rw [Nat.add_sub_cancel, Nat.div_one]

theorem Tensor.shape_convolve (kernel : Kernel) (stride : Nat) (x : Tensor Single) :
    (x.convolve kernel stride).shape =
      ⟨x.shape.batch, kernel.outChannels, convolvedExtent stride x.shape.height,
        convolvedExtent stride x.shape.width⟩ := rfl

theorem Tensor.shape_rectify_normalise (norm : Norm) (x : Tensor Single) :
    (x.normalise norm).rectify.shape = x.shape := rfl

theorem Bottleneck.shape_apply (bottleneck : Bottleneck) (stride : Nat) (x : Tensor Single) :
    (bottleneck.apply stride x).shape =
      ⟨x.shape.batch, bottleneck.leave.outChannels, convolvedExtent stride x.shape.height,
        convolvedExtent stride x.shape.width⟩ := by
  unfold apply
  cases bottleneck.prologue with
  | some norm =>
      simp only [Tensor.shape_convolve, Tensor.shape_rectify_normalise, convolvedExtent_one]
  | none =>
      simp only [Tensor.shape_convolve, Tensor.shape_rectify_normalise, convolvedExtent_one]

/-- A residual map that fits its block has the shapes of its layers. -/
theorem Block.shape_residual_coupling {block : Block}
    (fits : block.bottleneck.fits block.spec = true) (half : Tensor Single) :
    (block.coupling.residual half).shape = block.spec.residualShape half.shape := by
  have width : block.bottleneck.leave.outChannels = block.spec.outChannels :=
    of_decide_eq_true ((Bool.and_eq_true _ _).mp fits).2
  show (block.bottleneck.apply block.spec.stride half).shape = block.spec.residualShape half.shape
  rw [Bottleneck.shape_apply, width]
  rfl

theorem Block.isShaped_coupling {block : Block} (fits : block.bottleneck.fits block.spec = true) :
    block.coupling.IsShaped :=
  fun half _ _ => Block.shape_residual_coupling fits half

/-! ## Networks -/

namespace Network

variable {plan : Plan} {weights : Weights}

/-- Blocks of specifications and bottlenecks that fit each other one by one. -/
theorem fits_of_mem_zipWith {bottlenecks : List Bottleneck} {specs : List BlockSpec}
    (fits : List.Forall₂ (fun bottleneck spec => Bottleneck.fits bottleneck spec = true)
      bottlenecks specs) :
    (List.zipWith Block.mk specs bottlenecks).map (·.spec) = specs ∧
      ∀ block ∈ List.zipWith Block.mk specs bottlenecks,
        block.bottleneck.fits block.spec = true := by
  induction fits with
  | nil => exact ⟨rfl, fun _ member => absurd member List.not_mem_nil⟩
  | cons here _ ih =>
      refine ⟨?_, ?_⟩
      · rw [List.zipWith_cons_cons, List.map_cons, ih.1]
      · rw [List.zipWith_cons_cons, List.forall_mem_cons]
        exact ⟨here, ih.2⟩

/-- The branch of a network follows the plan of the network. -/
theorem follows_branch (fits : weights.Fits plan) : (Network.mk plan weights).branch.Follows plan := by
  obtain ⟨specs, blocks⟩ := fits_of_mem_zipWith fits.bottlenecks
  refine ⟨rfl, rfl, rfl, ?_, ?_⟩
  · show (((Network.mk plan weights).blocks.map (·.coupling)).map (·.spec)) = plan.specs
    rw [List.map_map]
    exact specs
  · intro coupling member
    obtain ⟨block, inside, rfl⟩ := List.mem_map.mp member
    exact Block.isShaped_coupling (blocks block inside)

theorem isRunnable_of_fits (fits : weights.Fits plan) :
    (Network.mk plan weights).isRunnable = true := by
  obtain ⟨-, blocks⟩ := fits_of_mem_zipWith fits.bottlenecks
  have all : (Network.mk plan weights).blocks.find?
      (fun block => !block.bottleneck.fits block.spec) = none := by
    rw [List.find?_eq_none]
    intro block member
    rw [blocks block member]
    decide
  rw [isRunnable, all]

end Network

/-! ## Drawn weights -/

/-- A source whose layers have the widths they were asked for. -/
structure WeightSource.Lawful (source : WeightSource Id) : Prop where
  kernel : ∀ outChannels inChannels : Nat,
    ((source.kernel outChannels inChannels).run.outChannels = outChannels) ∧
      (source.kernel outChannels inChannels).run.inChannels = inChannels
  norm : ∀ channels : Nat, (source.norm channels).run.channels = channels
  linear : ∀ features classes : Nat,
    (source.linear features classes).run.features = features ∧
      (source.linear features classes).run.classes = classes

theorem WeightSource.lawful_fresh : WeightSource.fresh.Lawful where
  kernel _ _ := ⟨rfl, rfl⟩
  norm _ := Array.size_replicate
  linear _ _ := ⟨rfl, rfl⟩

theorem Bottleneck.fits_draw {source : WeightSource Id} (lawful : source.Lawful) (spec : BlockSpec)
    (multiplier : Nat) : (Bottleneck.draw source spec multiplier).run.fits spec = true := by
  obtain ⟨kernel, norm, -⟩ := lawful
  unfold Bottleneck.draw
  cases first : spec.isFirst with
  | true => simp [fits, accepts, kernel, norm]
  | false => simp [fits, accepts, kernel, norm]

/-- The bottlenecks of a plan are drawn block by block. -/
theorem Weights.run_bottlenecks_draw (source : WeightSource Id) (plan : Plan) (multiplier : Nat) :
    (Weights.draw source plan multiplier).run.bottlenecks =
      plan.specs.map fun spec => (Bottleneck.draw source spec multiplier).run := List.idRun_mapM

/-- Drawn weights fit the plan they were drawn for. -/
theorem Weights.fits_draw {source : WeightSource Id} (lawful : source.Lawful) (plan : Plan)
    (multiplier : Nat) : (Weights.draw source plan multiplier).run.Fits plan where
  bottlenecks := by
    rw [run_bottlenecks_draw, List.forall₂_map_left_iff, List.forall₂_same]
    exact fun spec _ => Bottleneck.fits_draw lawful spec multiplier
  norm := lawful.norm _
  features := (lawful.linear _ _).1
  classes := (lawful.linear _ _).2

end InvertibleNet
